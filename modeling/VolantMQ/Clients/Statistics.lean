import Mathlib.Data.List.Count
import Mathlib.Data.List.Perm.Subperm
import VolantMQ.Clients.NewSession
import VolantMQ.Clients.Startup

/-!
# Session statistics

`systree` counts the sessions of the broker: `Created` adds one to a counter of 64 bits, and
`Removed` takes one off. `loadSessions` reports the persisted sessions as created, and
`onSessionClose` reports a session that has ended for good as removed. `NewSession`, where all other
sessions come from, reports nothing. The counter wraps around as soon as such a session ends for
good.

Both calls name a session by the id of its client. An id may have many sessions, one after the
other: a session is over when it ends for good, or when a CONNECT packet with the clean flag wipes
it.
-/

namespace VolantMQ.Clients

open Lib Packet

open Topics (parseRFC3339)

/-- The counters of `systree.sessions`. -/
structure SessionStat where
  curr : UInt64
  max : UInt64

namespace SessionStat

def created (t : SessionStat) : SessionStat :=
  let newVal := t.curr + 1
  ⟨newVal, if t.max < newVal then newVal else t.max⟩

def removed (t : SessionStat) : SessionStat := { t with curr := t.curr + ~~~0 }

end SessionStat

/-- A session: the id of its client, and its number among the sessions of the id. -/
structure Identity where
  id : GoString
  serial : ℕ
  deriving DecidableEq, Repr

/-- A call of `systree` about a session. -/
inductive Report where
  | created (session : Identity)
  | removed (session : Identity)
  deriving DecidableEq, Repr

/-- The manager, the counters and the reports so far. -/
structure Statistics where
  manager : SessionManager
  sessions : SessionStat
  reports : List Report
  /-- The number of sessions of an id that are over. -/
  serial : GoString → ℕ

/-- What can happen to the sessions of a manager. -/
inductive SessionsOp where
  | connect (h : Header) (pkt : Packet.Connect) (returnCode : ReasonCode) (c : Circumstances)
  | session (id : GoString) (op : SessionOp)
  /-- `stop` of a session at the shutdown of the broker. -/
  | stop (id : GoString) (now : Int) (p : DisconnectParams)
  /-- The channel `quit` is closed. -/
  | quit

/-- What the sessions signal during a call of `NewSession`. -/
def SessionManager.heard (m : SessionManager) (h : Header) (pkt : Packet.Connect)
    (returnCode : ReasonCode) (c : Circumstances) : List (Event Publish) :=
  if m.checkServerStatus h.version returnCode ≠ CodeSuccess then []
  else
    match m.sessions.lookup (SessionManager.clientID pkt c) with
    | none => []
    | some oldWrap =>
        let (old, events) := oldWrap.s.after c.meanwhile
        events ++ if old.isOnline ∧ m.AllowReplace then (old.halt c.now c.params).2 else []

/-- `getSubscriber` wipes the session of the id. -/
def SessionManager.wipes (m : SessionManager) (h : Header) (pkt : Packet.Connect)
    (returnCode : ReasonCode) (c : Circumstances) : Bool :=
  m.checkServerStatus h.version returnCode = CodeSuccess ∧
    (m.loadSession (SessionManager.clientID pkt c) h.version c).2.2.isNone ∧
    Connect.isClean pkt.connectFlags

namespace Statistics

def report (m : Statistics) : Report → Statistics
  | .created session =>
      { m with sessions := m.sessions.created, reports := m.reports ++ [.created session] }
  | .removed session =>
      { m with sessions := m.sessions.removed, reports := m.reports ++ [.removed session] }

/-- The session of an id is over. -/
def close (m : Statistics) (id : GoString) : Statistics :=
  { m with serial := Function.update m.serial id (m.serial id + 1) }

/-- The part of `onSessionClose` about statistics, for all that a session signals. -/
def hear (m : Statistics) (id : GoString) : List (Event Publish) → Statistics
  | [] => m
  | .signalClose reason :: events =>
      (if reason = .clean ∨ reason = .expired then
        (m.report (.removed ⟨id, m.serial id⟩)).close id else m).hear id events
  | .publish _ :: events | .shutdownSubscriber :: events => m.hear id events

/-- Something happens to the session of an id, if there is one. -/
def act (m : Statistics) (id : GoString)
    (f : Session Publish → Session Publish × List (Event Publish)) : Statistics :=
  match m.manager.sessions.lookup id with
  | none => m
  | some wrap =>
      let (s, events) := f wrap.s
      let m := m.hear id events
      { m with manager := (m.manager.update id { wrap with s }).signal id events }

def step (m : Statistics) : SessionsOp → Statistics
  | .connect h pkt returnCode c =>
      let id := SessionManager.clientID pkt c
      let next := m.hear id (m.manager.heard h pkt returnCode c)
      { (if m.manager.wipes h pkt returnCode c then next.close id else next) with
        manager := (m.manager.newSession h pkt returnCode c).manager }
  | .session id op => m.act id fun s => s.after [op]
  | .stop id now p => m.act id fun s => s.halt now p
  | .quit => { m with manager := { m.manager with quit := true } }

/-- A manager after `loadSessions`. -/
def start (AllowReplace : Bool) (loaded : Startup) : Statistics :=
  let sessions := (loaded.sessions.entries.map fun entry =>
    (⟨entry.1, ⟨entry.2, false⟩⟩ : (_ : GoString) × SessionWrap)).toAList
  (loaded.created.map fun id => Report.created ⟨id, 0⟩).foldl report
    ⟨⟨sessions, loaded.sessions.entries.length, false, AllowReplace⟩, ⟨0, 0⟩, [], fun _ => 0⟩

/-- `NewManager`, as far as it is about sessions. -/
def newManager (AllowReplace : Bool) (now : Int) (entries : List (GoString × SessionState)) :
    Except (Fault PacketError) Statistics :=
  (Startup.loadSessions now entries).map (start AllowReplace)

/-- The counter is the number of sessions reported created less those reported removed, and every
`Removed` is preceded by a `Created` of its own for the same session. -/
structure Sound (m : Statistics) : Prop where
  counter : m.sessions.curr.toNat + m.reports.countP (· matches .removed _) =
    m.reports.countP (· matches .created _)
  matched : ∀ k session,
    (m.reports.take k).count (.removed session) ≤ (m.reports.take k).count (.created session)

end Statistics

/-- `loadSessions` does not return early from the entry of a session: its `Since` can be parsed, and
the session is not taken to have expired. -/
def SessionState.loads (state : SessionState) (now : Int) : Bool :=
  match state.Expire with
  | none => true
  | some delays =>
      match delays.Since, delays.ExpireIn with
      | none, _ => false
      | some since, .number val =>
          parseRFC3339 since + seconds (Startup.toUint32 val) ≤ now
      | some _, _ => true

/-- The ids of the sessions that are loaded. -/
def Startup.loaded (now : Int) (entries : List (GoString × SessionState)) : List GoString :=
  (entries.filter fun entry => entry.2.loads now).map Prod.fst

namespace Session

/-- A connection ends that its session does not outlive, or the timer of a session fires whose
expiry interval is over. -/
def endsForGood (s : Session Publish) : SessionOp → Bool
  | .disconnect _ p => s.isOnline &&
      (s.killOnDisconnect || (if p.ExpireAt.isSome then p.ExpireAt else s.expireIn) == some 0)
  | .timer _ => s.timer.isSome && s.expireIn == some 0

/-- The number of times that a session ends for good. -/
def endings (s : Session Publish) : List SessionOp → ℕ
  | [] => 0
  | op :: ops => (s.endsForGood op).toNat + (s.after [op]).1.endings ops

/-- The signals that are reported as the end of a session. -/
def finals (events : List (Event Publish)) : ℕ :=
  events.countP fun event => match event with
    | .signalClose .clean | .signalClose .expired => true
    | _ => false

section Endings

theorem finals_append (first second : List (Event Publish)) :
    finals (first ++ second) = finals first + finals second := List.countP_append

theorem finals_publish (will : Option Publish) : finals (will.toList.map Event.publish) = 0 := by
  cases will <;> rfl

theorem finals_onDisconnect (s : Session Publish) (now : Int) (p : DisconnectParams) :
    finals (s.onDisconnect now p).2 =
      (s.killOnDisconnect || (if p.ExpireAt.isSome then p.ExpireAt else s.expireIn) == some 0).toNat
    := by
  have first : finals (s.beginDisconnect p).2 = 0 ∧ (s.beginDisconnect p).1.killOnDisconnect =
      (s.killOnDisconnect || (if p.ExpireAt.isSome then p.ExpireAt else s.expireIn) == some 0) := by
    simp only [beginDisconnect]
    generalize (if p.ExpireAt.isSome = true then p.ExpireAt else s.expireIn) = expireIn
    split
    · exact ⟨finals_publish _, rfl⟩
    · exact ⟨rfl, rfl⟩
  have second : ∀ s : Session Publish, finals (s.releaseSubscriber p).2 = 0 ∧
      (s.releaseSubscriber p).1.killOnDisconnect = s.killOnDisconnect := by
    intro s
    unfold releaseSubscriber
    split <;> exact ⟨rfl, rfl⟩
  have third : ∀ s : Session Publish,
      finals (s.endDisconnect now p).2 = s.killOnDisconnect.toNat := by
    intro s
    unfold endDisconnect
    split
    · rename_i kill
      rw [kill]
      rfl
    · rename_i keep
      rw [Bool.not_eq_true] at keep
      rw [keep]
      split
      · rfl
      · split <;> rfl
  change finals ((s.beginDisconnect p).2 ++ ((s.beginDisconnect p).1.releaseSubscriber p).2 ++
    (((s.beginDisconnect p).1.releaseSubscriber p).1.endDisconnect now p).2) = _
  rw [finals_append, finals_append, first.1, (second _).1, third, (second _).2, first.2]
  omega

theorem finals_timerCallback (s : Session Publish) (now : Int) :
    finals (s.timerCallback now).2 = (s.expireIn == some 0).toNat := by
  rcases s with
    ⟨created, subscriber, will, expireIn, willDelay, kill, since, timer, finalized, online, subs⟩
  cases expireIn with
  | none => cases will <;> rfl
  | some val =>
      by_cases zero : val = 0
      · subst zero
        cases will <;> cases subscriber <;> rfl
      · have other : (some val == some (0 : UInt32)) = false := by simpa using zero
        cases will <;> simp [timerCallback, finals, zero, other]

theorem finals_after (s : Session Publish) (ops : List SessionOp) :
    finals (s.after ops).2 = s.endings ops := by
  induction ops generalizing s with
  | nil => rfl
  | cons op ops ih =>
      have split : (s.after (op :: ops)).2 =
          (s.after [op]).2 ++ ((s.after [op]).1.after ops).2 := by
        cases op <;> simp [after]
      have first : finals (s.after [op]).2 = (s.endsForGood op).toNat := by
        cases op with
        | disconnect now p =>
            cases online : s.isOnline with
            | true => simp [after, endsForGood, online, finals_onDisconnect]
            | false => simp [after, endsForGood, online, finals]
        | timer now =>
            cases armed : s.timer.isSome with
            | true => simp [after, endsForGood, armed, finals_timerCallback]
            | false => simp [after, endsForGood, armed, finals]
      rw [split, finals_append, first, ih, endings]

/-- A session that is stopped ends for good if its connection would. -/
theorem finals_halt (s : Session Publish) (now : Int) (p : DisconnectParams) :
    finals (s.halt now p).2 = (s.endsForGood (.disconnect now p)).toNat := by
  let d := if s.isOnline then s.onDisconnect now { p with Will := true } else (s, [])
  have signals : (s.halt now p).2 = d.2 ++ (if d.1.finalized then ({ d.1 with timer := none }, [])
      else ({ d.1 with timer := none } : Session Publish).finalize .shutdown).2 := rfl
  have closed : ∀ (done : Bool) (s : Session Publish),
      finals (if done then (s, []) else s.finalize .shutdown).2 = 0 := by
    intro done s
    cases done <;> rfl
  have disconnected : finals d.2 = (s.endsForGood (.disconnect now p)).toNat := by
    cases online : s.isOnline with
    | true => simp [d, endsForGood, online, finals_onDisconnect]
    | false => simp [d, endsForGood, online, finals]
  rw [signals, finals_append, closed, disconnected, Nat.add_zero]

end Endings

end Session

namespace Statistics

/-- The number of sessions that end for good in a step, and their id. -/
def endings (m : Statistics) : SessionsOp → GoString × ℕ
  | .connect h pkt returnCode c =>
      let id := SessionManager.clientID pkt c
      if m.manager.checkServerStatus h.version returnCode ≠ CodeSuccess then (id, 0)
      else
        match m.manager.sessions.lookup id with
        | none => (id, 0)
        | some oldWrap =>
            let old := (oldWrap.s.after c.meanwhile).1
            (id, oldWrap.s.endings c.meanwhile +
              (m.manager.AllowReplace && old.endsForGood (.disconnect c.now c.params)).toNat)
  | .session id op =>
      match m.manager.sessions.lookup id with
      | none => (id, 0)
      | some wrap => (id, (wrap.s.endsForGood op).toNat)
  | .stop id now p =>
      match m.manager.sessions.lookup id with
      | none => (id, 0)
      | some wrap => (id, (wrap.s.endsForGood (.disconnect now p)).toNat)
  | .quit => ([], 0)

/-- Some sessions of an id, from the one that is not over. -/
def next (m : Statistics) (id : GoString) (n : ℕ) : List Identity :=
  (List.range' (m.serial id) n).map (Identity.mk id)

/-- The sessions that end for good in a step. -/
def ended (m : Statistics) (op : SessionsOp) : List Identity :=
  m.next (m.endings op).1 (m.endings op).2

/-- Every session that ends for good in the step is the one that was loaded under its id. -/
def Covered (loaded : List GoString) (m : Statistics) (op : SessionsOp) : Prop :=
  ∀ session ∈ m.ended op, session.serial = 0 ∧ session.id ∈ loaded

/-- Some sessions have been loaded, and some have ended since, each of them once. -/
structure Counts (m : Statistics) (created : List GoString) (removed : List Identity) : Prop where
  reports : m.reports =
    (created.map fun id => Report.created ⟨id, 0⟩) ++ removed.map Report.removed
  counter : (m.sessions.curr.toNat + removed.length) % 2 ^ 64 = created.length % 2 ^ 64
  once : removed.Nodup
  past : ∀ session ∈ removed, session.serial < m.serial session.id

section Steps

variable {m : Statistics} {created : List GoString} {removed : List Identity}

theorem Counts.report_created (counts : m.Counts created []) (id : GoString) :
    (m.report (.created ⟨id, 0⟩)).Counts (created ++ [id]) [] := by
  have counter := counts.counter
  refine ⟨by simp [report, counts.reports], ?_, counts.once, counts.past⟩
  simp only [report, SessionStat.created, UInt64.toNat_add, List.length_append,
    List.length_singleton, List.length_nil] at counter ⊢
  change (m.sessions.curr.toNat + 1) % 2 ^ 64 % 2 ^ 64 = _
  omega

theorem Counts.close (counts : m.Counts created removed) (id : GoString) :
    (m.close id).Counts created removed := by
  refine ⟨counts.reports, counts.counter, counts.once, fun session member => ?_⟩
  have before := counts.past session member
  simp only [Statistics.close]
  by_cases same : session.id = id
  · rw [same, Function.update_self]
    rw [same] at before
    omega
  · rw [Function.update_of_ne same]
    exact before

theorem Counts.report_removed (counts : m.Counts created removed) (id : GoString) :
    ((m.report (.removed ⟨id, m.serial id⟩)).close id).Counts created
      (removed ++ [⟨id, m.serial id⟩]) := by
  have counter := counts.counter
  have minus : (~~~0 : UInt64).toNat = 2 ^ 64 - 1 := by decide
  have fresh : (⟨id, m.serial id⟩ : Identity) ∉ removed := by
    intro member
    exact absurd (counts.past _ member) (lt_irrefl _)
  refine ⟨?_, ?_, ?_, ?_⟩
  · simp [report, Statistics.close, counts.reports]
  · simp only [report, Statistics.close, SessionStat.removed, UInt64.toNat_add, minus,
      List.length_append, List.length_singleton] at counter ⊢
    omega
  · exact List.Nodup.append counts.once (List.nodup_singleton _)
      (List.disjoint_singleton.mpr fresh)
  · intro session member
    rcases List.mem_append.mp member with before | here
    · have earlier := (counts.close id).past session before
      simpa only [report, Statistics.close] using earlier
    · rw [List.mem_singleton.mp here]
      simp [report, Statistics.close]

theorem next_succ (id : GoString) (n : ℕ) :
    m.next id (n + 1) = ⟨id, m.serial id⟩ :: (m.close id).next id n := by
  simp [next, Statistics.close, List.range'_succ]

theorem Counts.hear (counts : m.Counts created removed) (id : GoString)
    (events : List (Event Publish)) :
    (m.hear id events).Counts created (removed ++ m.next id (Session.finals events)) := by
  induction events generalizing m removed with
  | nil => simpa [Session.finals, Statistics.hear, next] using counts
  | cons event events ih =>
      cases event with
      | publish will => exact ih counts
      | shutdownSubscriber => exact ih counts
      | signalClose reason =>
          have final : ∀ finished, reason = finished → finished = .clean ∨ finished = .expired →
              (m.hear id (.signalClose reason :: events)).Counts created
                (removed ++ m.next id (Session.finals (.signalClose reason :: events))) := by
            rintro finished rfl last
            have one : Session.finals (.signalClose reason :: events) =
                Session.finals events + 1 := by
              rcases last with rfl | rfl <;> simp [Session.finals]
            have rest := ih (counts.report_removed id)
            have same : ((m.report (.removed ⟨id, m.serial id⟩)).close id).next id
                (Session.finals events) = (m.close id).next id (Session.finals events) := by
              simp only [next, Statistics.close, report]
            rw [List.append_assoc, same] at rest
            rw [Statistics.hear, if_pos last, one, next_succ]
            exact rest
          cases reason with
          | clean => exact final .clean rfl (.inl rfl)
          | expired => exact final .expired rfl (.inr rfl)
          | shutdown => exact ih counts

/-- Nothing that is counted is in the manager. -/
theorem Counts.with_manager (counts : m.Counts created removed) (manager : SessionManager) :
    ({ m with manager } : Statistics).Counts created removed :=
  ⟨counts.reports, counts.counter, counts.once, counts.past⟩

theorem Counts.act (counts : m.Counts created removed) {id : GoString} {wrap : SessionWrap}
    (held : m.manager.sessions.lookup id = some wrap)
    (f : Session Publish → Session Publish × List (Event Publish)) :
    (m.act id f).Counts created (removed ++ m.next id (Session.finals (f wrap.s).2)) := by
  rw [Statistics.act, held]
  exact (counts.hear id (f wrap.s).2).with_manager _

theorem act_of_absent {id : GoString} (absent : m.manager.sessions.lookup id = none)
    (f : Session Publish → Session Publish × List (Event Publish)) : m.act id f = m := by
  rw [Statistics.act, absent]

/-- What is heard during a call of `NewSession`. -/
theorem endings_connect (h : Header) (pkt : Packet.Connect) (returnCode : ReasonCode)
    (c : Circumstances) :
    m.endings (.connect h pkt returnCode c) = (SessionManager.clientID pkt c,
      Session.finals (m.manager.heard h pkt returnCode c)) := by
  simp only [SessionManager.heard, endings]
  split
  · rfl
  · cases held : m.manager.sessions.lookup (SessionManager.clientID pkt c) with
    | none => rfl
    | some oldWrap =>
        have replaced : ∀ old : Session Publish, Session.finals
            (if old.isOnline ∧ m.manager.AllowReplace then (old.halt c.now c.params).2
              else []) = (m.manager.AllowReplace &&
                old.endsForGood (.disconnect c.now c.params)).toNat := by
          intro old
          cases m.manager.AllowReplace with
          | false => simp [Session.finals]
          | true =>
              cases online : old.isOnline with
              | true => simp [Session.finals_halt]
              | false => simp [Session.finals, Session.endsForGood, online]
        simp only [Session.finals_append, Session.finals_after, replaced]

/-- A step reports the sessions that end for good in it as removed, and nothing else. -/
theorem Counts.step (counts : m.Counts created removed) (op : SessionsOp) :
    (m.step op).Counts created (removed ++ m.ended op) := by
  cases op with
  | quit =>
      simp only [ended, endings, next, List.range'_zero, List.map_nil, List.append_nil]
      exact counts.with_manager _
  | session id op =>
      simp only [Statistics.step, ended, endings]
      cases held : m.manager.sessions.lookup id with
      | none => simpa [act_of_absent held, next] using counts
      | some wrap =>
          have acted := counts.act held fun s => s.after [op]
          rw [Session.finals_after] at acted
          exact acted
  | stop id now p =>
      simp only [Statistics.step, ended, endings]
      cases held : m.manager.sessions.lookup id with
      | none => simpa [act_of_absent held, next] using counts
      | some wrap =>
          have acted := counts.act held fun s => s.halt now p
          rw [Session.finals_halt] at acted
          exact acted
  | connect h pkt returnCode c =>
      have heard := counts.hear (SessionManager.clientID pkt c) (m.manager.heard h pkt returnCode c)
      rw [ended, endings_connect]
      simp only [Statistics.step]
      apply Counts.with_manager
      split
      · exact heard.close _
      · exact heard

theorem count_reports (created removed : List Identity) (session : Identity) :
    (created.map Report.created ++ removed.map Report.removed).count (.created session) =
        created.count session ∧
      (created.map Report.created ++ removed.map Report.removed).count (.removed session) =
        removed.count session := by
  have injective : Function.Injective Report.created ∧ Function.Injective Report.removed :=
    ⟨fun _ _ same => Report.created.inj same, fun _ _ same => Report.removed.inj same⟩
  have noCreated : (removed.map Report.removed).count (.created session) = 0 := by
    rw [List.count_eq_zero]
    simp
  have noRemoved : (created.map Report.created).count (.removed session) = 0 := by
    rw [List.count_eq_zero]
    simp
  rw [List.count_append, List.count_append, noCreated, noRemoved,
    List.count_map_of_injective _ _ injective.1, List.count_map_of_injective _ _ injective.2]
  omega

theorem countP_reports (created removed : List Identity) :
    (created.map Report.created ++ removed.map Report.removed).countP (· matches .created _) =
        created.length ∧
      (created.map Report.created ++ removed.map Report.removed).countP (· matches .removed _) =
        removed.length := by
  simp [List.countP_map, Function.comp_def]

/-- Every session that has ended is one of those that were loaded. -/
def AllLoaded (created : List GoString) (removed : List Identity) : Prop :=
  ∀ session ∈ removed, session.serial = 0 ∧ session.id ∈ created

/-- The counter is right if there are not too many sessions and each that has ended had been
loaded. -/
theorem Counts.sound_iff (counts : m.Counts created removed) :
    m.Sound ↔ AllLoaded created removed ∧ created.length < 2 ^ 64 + removed.length := by
  have counter := counts.counter
  have bound := m.sessions.curr.toNat_lt
  let first := created.map fun id => (⟨id, 0⟩ : Identity)
  have reports : m.reports = first.map Report.created ++ removed.map Report.removed := by
    rw [counts.reports, List.map_map]
    rfl
  have length : first.length = created.length := List.length_map _
  have total := countP_reports first removed
  have loaded : ∀ session, session ∈ first ↔ session.serial = 0 ∧ session.id ∈ created := by
    rintro ⟨id, serial⟩
    simp [first, and_comm, eq_comm]
  constructor
  · intro sound
    refine ⟨fun session member => ?_, ?_⟩
    · have all := sound.matched m.reports.length session
      rw [List.take_length, reports, (count_reports first removed session).1,
        (count_reports first removed session).2] at all
      have positive := List.count_pos_iff.mpr member
      exact (loaded session).mp (List.count_pos_iff.mp (by omega))
    · have exact := sound.counter
      rw [reports, total.1, total.2] at exact
      omega
  · rintro ⟨covered, few⟩
    have subset : removed ⊆ first := fun session member =>
      (loaded session).mpr (covered session member)
    have fewer : removed.length ≤ first.length :=
      (List.subperm_of_subset counts.once subset).length_le
    refine ⟨?_, ?_⟩
    · rw [reports, total.1, total.2]
      omega
    · intro k session
      -- all calls of `Created` come first
      have split : m.reports.take k = (first.take k).map Report.created ++
          (removed.take (k - first.length)).map Report.removed := by
        rw [reports, List.take_append, List.length_map, List.map_take, List.map_take]
      rw [split, (count_reports _ _ session).1, (count_reports _ _ session).2]
      by_cases early : k ≤ first.length
      · rw [Nat.sub_eq_zero_of_le early, List.take_zero, List.count_nil]
        exact Nat.zero_le _
      · rw [show first.take k = first from List.take_of_length_le (by omega)]
        have all : removed.count session ≤ first.count session :=
          (List.subperm_of_subset counts.once subset).count_le session
        exact ((List.take_sublist _ _).count_le session).trans all

theorem counts_start (AllowReplace : Bool) (loaded : Startup) :
    (start AllowReplace loaded).Counts loaded.created [] := by
  have each : ∀ (later earlier : List GoString) (m : Statistics), m.Counts earlier [] →
      ((later.map fun id => Report.created ⟨id, 0⟩).foldl report m).Counts
        (earlier ++ later) [] := by
    intro later
    induction later with
    | nil => simp
    | cons id later ih =>
        intro earlier m counts
        have rest := ih (earlier ++ [id]) _ (counts.report_created id)
        rwa [List.append_assoc] at rest
  exact each loaded.created [] _ ⟨rfl, rfl, List.nodup_nil, nofun⟩

/-- The counter stays right in a step if and only if the step is covered. -/
theorem Counts.sound_step_iff (counts : m.Counts created removed) (sound : m.Sound)
    (op : SessionsOp) : (m.step op).Sound ↔ Covered created m op := by
  rcases counts.sound_iff.mp sound with ⟨before, few⟩
  rw [(counts.step op).sound_iff, List.length_append, and_iff_left (by omega), AllLoaded,
    List.forall_mem_append]
  exact and_iff_right before

end Steps

end Statistics

namespace Startup

theorem created_loadSubscriptions {m after : Startup} {id : GoString} {record : Bytes}
    (run : m.loadSubscriptions id record = .ok after) : after.created = m.created := by
  simp only [loadSubscriptions] at run
  split at run
  · split at run
    · rw [← Except.ok.inj run]
    · cases run
    · rw [← Except.ok.inj run]
  · rw [← Except.ok.inj run]

/-- The part about delays reports nothing, and goes on if the session is loaded. -/
theorem created_loadDelays {m after : Startup} {now : Int} {id : GoString} {state : SessionState}
    {delays : SessionDelays} {go : Bool} (held : state.Expire = some delays)
    (run : m.loadDelays now id state delays = .ok (after, go)) :
    after.created = m.created ∧ go = state.loads now := by
  cases parsed : delays.Since with
  | none =>
      simp only [loadDelays, parsed, Except.ok.injEq, Prod.mk.injEq] at run
      rw [← run.1, ← run.2]
      simp only [SessionState.loads, held, parsed, and_self]
  | some text =>
      have will : (m.loadWill now state.Version (parseRFC3339 text) delays).1.created =
          m.created := by
        simp only [loadWill]
        repeat' split
        all_goals rfl
      simp only [loadDelays, parsed] at run
      generalize m.loadWill now state.Version (parseRFC3339 text) delays = loaded at run will
      rcases loaded with ⟨next, left, willIn⟩
      have registers (expireIn : UInt32)
          (rest : (next.register now id state.Timestamp left willIn expireIn).map
            (fun m => (m, true)) = .ok (after, go)) : after.created = m.created ∧ go = true := by
        rw [register_eq] at rest
        split at rest
        · cases rest
        · cases rest
          exact ⟨will, rfl⟩
      cases interval : delays.ExpireIn with
      | number val =>
          simp only [loadExpiry, interval] at run
          simp only [SessionState.loads, held, parsed, interval]
          by_cases early : now < parseRFC3339 text + seconds (toUint32 val)
          · rw [if_pos early] at run
            cases run
            exact ⟨will, by simpa using early⟩
          · rw [if_neg early] at run
            rcases registers _ run with ⟨same, rfl⟩
            exact ⟨same, by simpa using early⟩
      | _ =>
          simp only [loadExpiry, interval] at run
          simp only [SessionState.loads, held, parsed, interval]
          exact registers 0 run

/-- What a session that is loaded adds to the reports. -/
theorem created_loadSession {m after : Startup} {now : Int} {id : GoString} {state : SessionState}
    (run : m.loadSession now id state = .ok after) :
    after.created = m.created ++ if state.loads now then [id] else [] := by
  let first := if state.Errors then
    { m with subscriptionsDeleted := m.subscriptionsDeleted ++ [id] } else m
  have same : first.created = m.created := by
    simp only [first]
    split <;> rfl
  have proceeds (next : Startup) (kept : next.created = m.created)
      (rest : (next.loadSubscriptions id state.Subscriptions).map
        (fun m => { m with created := m.created ++ [id] }) = .ok after) :
      after.created = m.created ++ [id] := by
    cases loaded : next.loadSubscriptions id state.Subscriptions with
    | error fault =>
        rw [loaded] at rest
        cases rest
    | ok last =>
        rw [loaded] at rest
        rw [← Except.ok.inj rest]
        simp only [created_loadSubscriptions loaded, kept]
  cases held : state.Expire with
  | none =>
      simp only [loadSession, held] at run
      have loads : state.loads now = true := by simp only [SessionState.loads, held]
      rw [if_pos loads]
      exact proceeds first same run
  | some delays =>
      simp only [loadSession, held] at run
      rcases decided : first.loadDelays now id state delays with fault | ⟨next, go⟩
      · rw [decided] at run
        cases run
      · rw [decided] at run
        rcases created_loadDelays held decided with ⟨kept, going⟩
        cases go with
        | false =>
            rw [← going, if_neg (by decide), List.append_nil, ← Except.ok.inj run, kept, same]
        | true =>
            rw [← going, if_pos rfl]
            exact proceeds next (kept.trans same) run

theorem created_loadSessions {now : Int} {entries : List (GoString × SessionState)}
    {after : Startup} (run : loadSessions now entries = .ok after) :
    after.created = loaded now entries := by
  have each : ∀ (entries : List (GoString × SessionState)) (m after : Startup),
      entries.foldlM (fun m entry => m.loadSession now entry.1 entry.2) m = .ok after →
      after.created = m.created ++ loaded now entries := by
    intro entries
    induction entries with
    | nil =>
        intro m after run
        rw [← Except.ok.inj run]
        simp [loaded]
    | cons entry entries ih =>
        intro m after run
        rw [List.foldlM_cons] at run
        cases first : m.loadSession now entry.1 entry.2 with
        | error fault =>
            rw [first] at run
            cases run
        | ok next =>
            rw [first] at run
            rw [ih next after run, created_loadSession first]
            cases loads : entry.2.loads now <;> simp [loaded, loads]
  simpa using each entries _ _ run

end Startup

namespace Statistics

/-- At all times of a run the counter is the number of sessions reported created less those reported
removed, each of them reported created before, if and only if fewer than 2⁶⁴ sessions were loaded
and every session that ends for good is one of those. -/
theorem counter_sound_iff {AllowReplace : Bool} {now : Int}
    {entries : List (GoString × SessionState)} {m : Statistics}
    (begun : newManager AllowReplace now entries = .ok m) (ops : List SessionsOp) :
    (∀ n, ((ops.take n).foldl step m).Sound) ↔
      (Startup.loaded now entries).length < 2 ^ 64 ∧
        Along step (Covered (Startup.loaded now entries)) m ops := by
  rcases run : Startup.loadSessions now entries with fault | startup
  · rw [newManager, run] at begun
    cases begun
  rw [newManager, run] at begun
  cases begun
  have first := counts_start AllowReplace startup
  rw [Startup.created_loadSessions run] at first
  rw [always_iff_along (fun m => ∃ removed, m.Counts (Startup.loaded now entries) removed) Sound
    (fun m op => ?_) (fun m op => ?_) ⟨_, first⟩ ops, first.sound_iff]
  · refine and_congr_left fun _ => ?_
    simp [AllLoaded]
  · rintro ⟨removed, counts⟩
    exact ⟨_, counts.step op⟩
  · rintro ⟨removed, counts⟩ sound
    exact counts.sound_step_iff sound op

/-- A client that comes with these connect flags. -/
def sampleClient (connectFlags : UInt8) : Packet.Connect :=
  { keepAlive := 60
    connectFlags
    clientID := [0x63]
    username := []
    password := []
    willTopic := []
    willMessage := [] }

/-- A V5.0 client connects to the session it has. -/
def returningConnect : SessionsOp :=
  .connect (.new ProtocolV50 .CONNECT) (sampleClient 0) CodeSuccess
    SessionManager.sampleCircumstances

/-- It disconnects with an expiry interval of zero. -/
def returningDisconnect : SessionsOp := .session [0x63] (.disconnect 0 ⟨some 0, false, false⟩)

/-- A V3.1.1 client connects with a clean session and disconnects. -/
def cleanVisit : List SessionsOp :=
  [.connect (.new ProtocolV311 .CONNECT) (sampleClient 0x02) CodeSuccess
      SessionManager.sampleCircumstances,
    .session [0x63] (.disconnect 0 ⟨none, false, false⟩)]

/-- The visit of a client whose session had been persisted. -/
theorem returningVisit_sound :
    ∃ m, newManager true 0 [Startup.sampleEntry ⟨some 0, .empty, .empty, []⟩] = .ok m ∧
      ([returningConnect, returningDisconnect].foldl step m).reports =
        [.created ⟨[0x63], 0⟩, .removed ⟨[0x63], 0⟩] ∧
      ∀ n, (([returningConnect, returningDisconnect].take n).foldl step m).Sound := by
  have found : ∃ m, newManager true 0 [Startup.sampleEntry ⟨some 0, .empty, .empty, []⟩] = .ok m ∧
      ([returningConnect, returningDisconnect].foldl step m).reports =
        [.created ⟨[0x63], 0⟩, .removed ⟨[0x63], 0⟩] ∧
      m.ended returningConnect = [] ∧
      (m.step returningConnect).ended returningDisconnect = [⟨[0x63], 0⟩] :=
    ⟨_, rfl, rfl, rfl, rfl⟩
  rcases found with ⟨m, begun, reports, first, second⟩
  have loaded : Startup.loaded 0 [Startup.sampleEntry ⟨some 0, .empty, .empty, []⟩] = [[0x63]] :=
    rfl
  refine ⟨m, begun, reports, (counter_sound_iff begun _).mpr ⟨?_, ?_, ?_, trivial⟩⟩
  · rw [loaded]
    decide
  · intro session member
    rw [first] at member
    cases member
  · intro session member
    rw [second] at member
    rw [List.mem_singleton.mp member, loaded]
    exact ⟨rfl, List.mem_singleton_self _⟩

/-- The visit of a client to a broker that has just been set up. -/
theorem cleanVisit_wraps :
    ∃ m, newManager true 0 [] = .ok m ∧ ¬(cleanVisit.foldl step m).Sound ∧
      (cleanVisit.foldl step m).sessions.curr.toNat = 2 ^ 64 - 1 ∧
      (cleanVisit.foldl step m).reports = [.removed ⟨[0x63], 1⟩] := by
  have found : ∃ m, newManager true 0 [] = .ok m ∧
      (cleanVisit.foldl step m).sessions.curr = 0 + ~~~0 ∧
      (cleanVisit.foldl step m).reports = [.removed ⟨[0x63], 1⟩] := ⟨_, rfl, rfl, rfl⟩
  rcases found with ⟨m, begun, counter, reports⟩
  refine ⟨m, begun, fun sound => ?_, by rw [counter]; decide, reports⟩
  have one := sound.matched 1 ⟨[0x63], 1⟩
  rw [reports] at one
  exact absurd one (by decide)

end Statistics

end VolantMQ.Clients
