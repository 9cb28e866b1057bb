import VolantMQ.Clients.TimerLaw
import VolantMQ.Topics.Restart

/-!
# Stopping a session

At shutdown `stop` writes down what an offline session still waits for: the will with its remaining
delay, the start of the wait, and the remaining expiry interval. What it writes is meant to be read
as instants counted from that start, but the intervals it writes are counted from the shutdown, and
the expiry interval is not written at all.
-/

namespace VolantMQ.Clients

open Lib Packet Topics

/-- A decimal text, by what `strconv.Atoi` makes of it. -/
inductive Decimal where
  | empty
  | number (val : Int)
  | garbled
  deriving DecidableEq, Repr

/-- `persistence.SessionDelays`. The text `Since` has the format `time.RFC3339`; here it is the
number of seconds, and a text that is no time is `none`. -/
structure SessionDelays where
  Since : Option Int
  ExpireIn : Decimal
  WillIn : Decimal
  WillData : Bytes
  deriving DecidableEq, Repr

/-- The fields of `persistence.SessionState` that `stop` sets. -/
structure StoppedState where
  Timestamp : Int
  Expire : Option SessionDelays
  deriving DecidableEq, Repr

namespace Session

/-- `uint32(time.Since(s.expiringSince) / time.Second)` -/
def elapsed (s : Session Publish) (now : Int) : UInt32 := Publish.secondsLeft now s.expiringSince

/-- The part of `stop` that writes down the will: its remaining delay and its encoding. -/
def storeWill (s : Session Publish) (elapsed : UInt32) (order : MapOrder PropertyEntry) :
    Except (Fault PacketError) (Session Publish × Decimal × Bytes) :=
  match s.will with
  | none => .ok (s, .empty, [])
  | some will =>
      if 0 < s.willDelay then
        let s := { s with subtractions := s.subtractions ++ [(s.willDelay, elapsed)] }
        if 0 < s.willDelay - elapsed then
          let will := will.setPacketID 0
          let s := { s with willDelay := s.willDelay - elapsed, will := some will }
          match will.encode order with
          | .error .panic => .error .panic
          | .error (.error _) => .ok (s, .empty, [])
          | .ok buf => .ok (s, .number s.willDelay.toNat, buf)
        else .ok (s, .empty, [])
      else .ok (s, .empty, [])

/-- The part of `stop` that takes the time that has passed off the expiry interval. -/
def reduceExpiry (s : Session Publish) (elapsed : UInt32) : Session Publish :=
  match s.expireIn with
  | none => s
  | some expireIn =>
      if 0 < expireIn then
        let s := { s with subtractions := s.subtractions ++ [(expireIn, elapsed)] }
        if 0 < expireIn - elapsed then { s with expireIn := some (expireIn - elapsed) } else s
      else s

/-- The part of `stop` that writes down what the session waits for. -/
def storeDelays (s : Session Publish) (now : Int) (order : MapOrder PropertyEntry) :
    Except (Fault PacketError) (Session Publish × Option SessionDelays) :=
  if s.expireIn.isSome ∨ (0 < s.willDelay ∧ s.will.isSome) then
    let elapsed := s.elapsed now
    match s.storeWill elapsed order with
    | .error fault => .error fault
    | .ok (s, WillIn, WillData) => .ok (s.reduceExpiry elapsed,
        some ⟨some (formatRFC3339 s.expiringSince), .empty, WillIn, WillData⟩)
  else .ok (s, none)

/-- `session.stop`; an online session is disconnected with its will first. -/
def stop (s : Session Publish) (now : Int) (order : MapOrder PropertyEntry) (p : DisconnectParams) :
    Except (Fault PacketError) (Session Publish × List (Event Publish) × StoppedState) :=
  let (s, disconnected) :=
    if s.isOnline then s.onDisconnect now { p with Will := true } else (s, [])
  let s := { s with timer := none }
  let (s, closed) := if s.finalized then (s, []) else s.finalize .shutdown
  match s.storeDelays now order with
  | .error fault => .error fault
  | .ok (s, Expire) =>
      .ok (s, disconnected ++ closed, ⟨formatRFC3339 s.createdAt, Expire⟩)

end Session

/-- The interval that a decimal text and a start stand for ends at the given instant, as far as
whole seconds tell. -/
def Denotes (since : Option Int) (interval : Decimal) (due : Int) : Prop :=
  ∃ start n, since = some start ∧ interval = .number n ∧ start + n = formatRFC3339 due

/-- What `stop` writes down describes the instants at which the timer would have fired. -/
def StopsRight (req : Connect Publish) (ending : Ending) (t₀ now : Int) (s : Session Publish)
    (order : MapOrder PropertyEntry) (p : DisconnectParams) : Prop :=
  ∃ after events state, s.stop now order p = .ok (after, events, state) ∧ after.Unwrapped ∧
    (∀ m, req.delayed ending = some m → now < req.willDue ending t₀ →
      ∃ delays, state.Expire = some delays ∧
        Denotes delays.Since delays.WillIn (req.willDue ending t₀)) ∧
    ∀ e, req.expireAt ending = some e → 0 < e → now < t₀ + seconds e →
      ∃ delays, state.Expire = some delays ∧ Denotes delays.Since delays.ExpireIn (t₀ + seconds e)

section Delays

variable {req : Connect Publish} {ending : Ending} {t₀ now : Int} {s : Session Publish}
  {order : MapOrder PropertyEntry} {p : DisconnectParams}
  {published : List (Int × Publish)} {closed : List (Int × ExitReason)}

/-- The seconds that have passed, as long as they fit. -/
theorem toNat_secondsLeft (since : t₀ ≤ now) (fits : now - t₀ < 2 ^ 32 * second) :
    ((Publish.secondsLeft now t₀).toNat : Int) = (now - t₀) / second := by
  have difference : Publish.timeSub now t₀ = now - t₀ := by
    unfold Publish.timeSub
    unfold second at fits
    omega
  have quotient : (now - t₀).tdiv 1000000000 = (now - t₀) / second :=
    Int.tdiv_eq_ediv_of_nonneg (by omega)
  have bound : 0 ≤ (now - t₀) / second ∧ (now - t₀) / second < 2 ^ 32 := by
    unfold second at fits ⊢
    omega
  rw [Publish.secondsLeft, difference, quotient, UInt32.toNat_ofNat']
  omega

theorem format_add_seconds (t₀ : Int) (n : UInt32) :
    formatRFC3339 (t₀ + seconds n) = formatRFC3339 t₀ + n.toNat := by
  have shift : (t₀ + n.toNat * 1000000000) / 1000000000 = t₀ / 1000000000 + n.toNat := by omega
  exact shift

theorem storeDelays_ExpireIn {after : Session Publish} {delays : SessionDelays}
    (stored : s.storeDelays now order = .ok (after, some delays)) : delays.ExpireIn = .empty := by
  simp only [Session.storeDelays] at stored
  split at stored
  · split at stored
    · simp at stored
    · simp only [Except.ok.injEq, Prod.mk.injEq, Option.some.injEq] at stored
      rw [← stored.2]
  · simp at stored

/-- `stop` of an offline session that still waits. -/
theorem stop_eq (offline : s.isOnline = false) (running : s.finalized = false) :
    s.stop now order p =
      (({ s with timer := none, finalized := true } : Session Publish).storeDelays now order).map
        fun result => (result.1, [.signalClose .shutdown],
          ⟨formatRFC3339 result.1.createdAt, result.2⟩) := by
  simp only [Session.stop, offline, running, Session.finalize, Bool.false_eq_true, if_false,
    List.nil_append]
  rcases Session.storeDelays _ now order with fault | result <;> rfl

/-- While the timer is armed, the session waits for the end of its expiry interval or has none and
waits for the will to be published. -/
theorem Stage.waits (stage : Stage req ending t₀ now s published closed) (since : t₀ ≤ now)
    (armed : s.timer.isSome = true) :
    s.finalized = false ∧
      ((∃ e, req.expireAt ending = some e ∧ 0 < e ∧ now < t₀ + seconds e) ∨
        (req.expireAt ending = none ∧ s.Armed req ending t₀ ∧
          now < t₀ + seconds req.reConfig.willDelay ∧ ∃ m, req.delayed ending = some m)) := by
  have positive : ¬req.Killed ending → ∀ e, req.expireAt ending = some e → 0 < e := by
    intro alive e expiry
    refine UInt32.pos_iff_ne_zero.mpr fun zero => alive (.inr ?_)
    rw [expiry, zero]
  cases stage with
  | first armed ahead prompt unclosed =>
      refine ⟨armed.finalized, ?_⟩
      cases expiry : req.expireAt ending with
      | some e =>
          have bound := firstPeriod_le_closeDue armed.alive t₀
          simp only [Connect.closeDue, if_neg armed.alive, expiry] at bound
          exact .inl ⟨e, rfl, positive armed.alive e expiry, by omega⟩
      | none =>
          rw [Connect.firstPeriod, expiry] at ahead
          cases waits : req.delayed ending with
          | none =>
              simp only [waits, Option.isSome_none, Bool.false_eq_true, if_false, seconds,
                UInt32.toNat_zero] at ahead
              omega
          | some m =>
              simp only [waits, Option.isSome_some, if_true] at ahead
              exact .inr ⟨rfl, armed, ahead, m, rfl⟩
  | again e m rearmed waited passed ahead late unclosed =>
      exact ⟨rearmed.finalized,
        .inl ⟨e, rearmed.expiry, positive rearmed.alive e rearmed.expiry, ahead⟩⟩
  | finished timer => simp [timer] at armed

/-- What `stop` writes down for a session that only waits to publish its will. -/
theorem storeDelays_of_will {m : Publish} (will : s.will = some m) (later : 0 < s.willDelay)
    (expireIn : s.expireIn = none) (left : s.elapsed now < s.willDelay) :
    s.storeDelays now order =
      match (m.setPacketID 0).encode order with
      | .error .panic => .error .panic
      | .error (.error _) => .ok ({ s with
          subtractions := s.subtractions ++ [(s.willDelay, s.elapsed now)]
          willDelay := s.willDelay - s.elapsed now
          will := some (m.setPacketID 0) },
          some ⟨some (formatRFC3339 s.expiringSince), .empty, .empty, []⟩)
      | .ok buf => .ok ({ s with
          subtractions := s.subtractions ++ [(s.willDelay, s.elapsed now)]
          willDelay := s.willDelay - s.elapsed now
          will := some (m.setPacketID 0) },
          some ⟨some (formatRFC3339 s.expiringSince), .empty,
            .number (s.willDelay - s.elapsed now).toNat, buf⟩) := by
  have something : s.expireIn.isSome = true ∨ (0 < s.willDelay ∧ s.will.isSome = true) :=
    .inr ⟨later, by rw [will]; rfl⟩
  have rest : 0 < s.willDelay - s.elapsed now := by
    have bound : (s.elapsed now).toNat < s.willDelay.toNat := left
    have difference := UInt32.toNat_sub_of_le _ _ (UInt32.le_of_lt left)
    refine UInt32.pos_iff_ne_zero.mpr fun zero => ?_
    rw [zero, UInt32.toNat_zero] at difference
    omega
  rw [Session.storeDelays, if_pos something]
  simp only [Session.storeWill, will, if_pos later, if_pos rest]
  rcases (m.setPacketID 0).encode order with (_ | _) | buf <;>
    simp only [Session.reduceExpiry, expireIn]

/-- The expiry interval is never written down. -/
theorem not_stopsRight_of_expiry {e : UInt32} (offline : s.isOnline = false)
    (running : s.finalized = false) (expiry : req.expireAt ending = some e) (positive : 0 < e)
    (ahead : now < t₀ + seconds e) : ¬StopsRight req ending t₀ now s order p := by
  rintro ⟨after, events, state, run, -, -, stored⟩
  rcases stored e expiry positive ahead with ⟨delays, held, start, n, -, number, -⟩
  rw [stop_eq offline running] at run
  rcases map_eq_ok.mp run with ⟨⟨next, Expire⟩, kept, same⟩
  simp only [Prod.mk.injEq] at same
  rw [← same.2.2] at held
  simp only at held
  rw [held] at kept
  simp [storeDelays_ExpireIn kept] at number

section Waiting

variable {m : Publish} (waiting : s.Armed req ending t₀) (since : t₀ ≤ now)
  (ahead : now < t₀ + seconds req.reConfig.willDelay)

include waiting since ahead

theorem toNat_elapsed : ((s.elapsed now).toNat : Int) = (now - t₀) / second := by
  rw [Session.elapsed, waiting.expiringSince]
  refine toNat_secondsLeft since ?_
  have small := req.reConfig.willDelay.toNat_lt
  simp only [seconds, second] at ahead ⊢
  omega

theorem elapsed_lt_willDelay : s.elapsed now < s.willDelay := by
  have passed := toNat_elapsed waiting since ahead
  show (s.elapsed now).toNat < s.willDelay.toNat
  rw [waiting.willDelay]
  simp only [seconds, second] at ahead passed
  omega

/-- A session that only waits to publish its will. What is left of the delay is counted from the
shutdown but written down as if it were counted from the end of the connection. -/
theorem stopsRight_iff_of_will (offline : s.isOnline = false) (running : s.finalized = false)
    (unwrapped : s.Unwrapped) (expiry : req.expireAt ending = none)
    (waits : req.delayed ending = some m) :
    StopsRight req ending t₀ now s order p ↔
      now < t₀ + second ∧ ∃ buf, (m.setPacketID 0).encode order = .ok buf := by
  have later : 0 < s.willDelay := by
    rw [waiting.willDelay]
    exact UInt32.pos_iff_ne_zero.mpr (Connect.delayed_eq_some waits).2.1
  have endless : s.expireIn = none := by
    rw [waiting.expireIn, Connect.restOfExpiry, expiry]
    rfl
  have passed := toNat_elapsed waiting since ahead
  have left := elapsed_lt_willDelay waiting since ahead
  have period : req.willDue ending t₀ = t₀ + seconds req.reConfig.willDelay := by
    rw [willDue_of_delayed waits, Connect.firstPeriod, expiry, waits]
    rfl
  have due : formatRFC3339 (req.willDue ending t₀) =
      formatRFC3339 t₀ + req.reConfig.willDelay.toNat := by
    rw [period, format_add_seconds]
  rw [← period] at ahead
  have difference := UInt32.toNat_sub_of_le _ _ (UInt32.le_of_lt left)
  have stored := @storeDelays_of_will now { s with timer := none, finalized := true } order m
    (waiting.will.trans waits) later endless left
  rw [StopsRight, stop_eq offline running, stored]
  cases encoded : (m.setPacketID 0).encode order with
  | error fault =>
      refine ⟨fun right => ?_, fun condition => by simp at condition⟩
      rcases right with ⟨after, events, state, run, -, will, -⟩
      rcases will m waits ahead with ⟨delays, held, start, n, -, number, -⟩
      cases fault with
      | panic => simp [Except.map] at run
      | error reason =>
          simp only [Except.map, Except.ok.injEq, Prod.mk.injEq] at run
          rw [← run.2.2, Option.some.injEq] at held
          rw [← held] at number
          simp at number
  | ok buf =>
      constructor
      · rintro ⟨after, events, state, run, -, will, -⟩
        rcases will m waits ahead with ⟨delays, held, start, n, begun, number, instant⟩
        simp only [Except.map, Except.ok.injEq, Prod.mk.injEq] at run
        rw [← run.2.2, Option.some.injEq] at held
        rw [← held] at number begun
        have count : ((s.willDelay - s.elapsed now).toNat : Int) = n := Decimal.number.inj number
        have origin : formatRFC3339 s.expiringSince = start := Option.some.inj begun
        rw [due, ← origin, ← count, difference, waiting.expiringSince,
          waiting.willDelay] at instant
        refine ⟨?_, buf, rfl⟩
        have bound : (s.elapsed now).toNat < s.willDelay.toNat := left
        rw [waiting.willDelay] at bound
        simp only [second] at passed ⊢
        omega
      · rintro ⟨soon, -⟩
        have zero : (s.elapsed now).toNat = 0 := by
          simp only [second] at passed soon
          omega
        refine ⟨_, _, _, rfl, ?_, ?_, fun e other => by simp [expiry] at other⟩
        · intro pair member
          rcases List.mem_append.mp member with old | new
          · exact unwrapped pair old
          · rw [List.mem_singleton.mp new]
            exact UInt32.le_of_lt left
        · intro other same _
          refine ⟨_, rfl, _, _, rfl, rfl, ?_⟩
          change formatRFC3339 s.expiringSince + ((s.willDelay - s.elapsed now).toNat : Int) = _
          rw [due, waiting.expiringSince, difference, waiting.willDelay, zero, Nat.sub_zero]

end Waiting

/-- A session that waits is stopped right exactly when it has no expiry interval, less than a
second has passed, and its will can be encoded. -/
theorem stopsRight_iff_of_stage (stage : Stage req ending t₀ now s published closed)
    (since : t₀ ≤ now) (armed : s.timer.isSome = true) (offline : s.isOnline = false)
    (unwrapped : s.Unwrapped) :
    StopsRight req ending t₀ now s order p ↔
      req.expireAt ending = none ∧ now < t₀ + second ∧
        ∀ m, req.delayed ending = some m → ∃ buf, (m.setPacketID 0).encode order = .ok buf := by
  rcases stage.waits since armed with ⟨running, ⟨e, expiry, positive, ahead⟩ |
    ⟨expiry, waiting, ahead, m, waits⟩⟩
  · have wrong := @not_stopsRight_of_expiry req ending t₀ now s order p e offline running expiry
      positive ahead
    exact iff_of_false wrong fun condition => by simp [expiry] at condition
  · rw [stopsRight_iff_of_will waiting since ahead offline running unwrapped expiry waits]
    simp [expiry, waits]

end Delays

/-- In every timeline, a session that waits for its timer is stopped right exactly when it has no
expiry interval, less than a second has passed since the connection ended, and its will can be
encoded. -/
theorem Timeline.stopsRight_iff (start : Int) (ops : List (Timeline.Op Publish))
    (order : MapOrder PropertyEntry) (p : DisconnectParams) {episode : Episode Publish} {t₀ : Int}
    {ending : Ending} (held : (ops.foldl Timeline.step (.new start)).current = some episode)
    (ended : episode.ended = some (t₀, ending))
    (armed : (ops.foldl Timeline.step (.new start)).session.timer.isSome = true) :
    StopsRight episode.request ending t₀ (ops.foldl Timeline.step (.new start)).now
        (ops.foldl Timeline.step (.new start)).session order p ↔
      episode.request.expireAt ending = none ∧
        (ops.foldl Timeline.step (.new start)).now < t₀ + second ∧
        ∀ m, episode.request.delayed ending = some m →
          ∃ buf, (m.setPacketID 0).encode order = .ok buf := by
  have inv := invariant_run Timeline.Inv (fun _ op before => before.step op)
    (Timeline.inv_new start) ops
  have fits := (inv.present episode held).2
  rw [Episode.Fits, ended] at fits
  exact stopsRight_iff_of_stage fits.2.2 fits.2.1 armed fits.1 inv.unwrapped

/-- A V5.0 client with a will to the topic `a` and a will delay. -/
def sampleConnect (sessionExpiry : Option UInt32) (willDelayInterval : UInt32) : Connect Publish :=
  { version := ProtocolV50
    clean := true
    will := some { Publish.new ProtocolV50 with topic := [0x61], payload := [0x68] }
    sessionExpiry
    willDelayInterval }

/-- Its connection is lost at once. -/
def sampleTimeline (sessionExpiry : Option UInt32) (willDelayInterval : UInt32) :
    List (Timeline.Op Publish) :=
  [.connect (sampleConnect sessionExpiry willDelayInterval), .disconnect ⟨true, none, true⟩]

/-- A session without an expiry interval that is stopped at once. -/
theorem stopsRight_at_once :
    ∃ episode, ((sampleTimeline none 5).foldl Timeline.step (.new 0)).current = some episode ∧
      StopsRight episode.request ⟨true, none, true⟩ 0 0
        ((sampleTimeline none 5).foldl Timeline.step (.new 0)).session (.insertion _)
        ⟨none, true, true⟩ := by
  refine ⟨_, rfl, (Timeline.stopsRight_iff 0 (sampleTimeline none 5) (.insertion _)
    ⟨none, true, true⟩ rfl rfl rfl).mpr ⟨rfl, by decide, ?_⟩⟩
  intro m waits
  rw [show m = { Publish.new ProtocolV50 with topic := [0x61], payload := [0x68] } from
    (Option.some.inj waits).symm]
  exact ⟨_, rfl⟩

/-- With an expiry interval of ten seconds, its end is forgotten. -/
theorem stop_forgets_expiry :
    (∃ after events state,
        ((sampleTimeline (some 10) 5).foldl Timeline.step (.new 0)).session.stop 0 (.insertion _)
          ⟨none, true, true⟩ = .ok (after, events, state) ∧
        ∃ delays, state.Expire = some delays ∧ delays.WillIn = .number 5 ∧
          delays.ExpireIn = .empty) ∧
      ¬StopsRight (sampleConnect (some 10) 5) ⟨true, none, true⟩ 0 0
        ((sampleTimeline (some 10) 5).foldl Timeline.step (.new 0)).session (.insertion _)
        ⟨none, true, true⟩ := by
  refine ⟨⟨_, _, _, rfl, _, rfl, rfl, rfl⟩, ?_⟩
  rintro ⟨after, events, state, run, -, -, stored⟩
  rcases stored 10 rfl (by decide) (by decide) with ⟨delays, held, start, n, -, number, -⟩
  rw [show state.Expire = some ⟨some 0, .empty, .number 5, _⟩ by
    rw [← (Prod.mk.inj (Prod.mk.inj (Except.ok.inj run)).2).2]; rfl, Option.some.injEq] at held
  rw [← held] at number
  simp at number

end VolantMQ.Clients
