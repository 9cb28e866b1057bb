import Mathlib.Data.List.AList
import VolantMQ.Clients.WillMessage

/-!
# Admitting a client

`NewSession` answers a CONNECT packet. It loads or allocates the session of the client id and takes
the lock of the id, configures the session and allocates its connection, and in a deferred function
writes the CONNACK packet and starts the session, which gives the lock back. The deferred function
looks at the session, not at what became of it, and without it nobody gives the lock back.

A call runs here on its own, except that the old session of the id may close while the call waits
for it. Whatever a call depends on besides its arguments is in its `Circumstances`.
-/

namespace VolantMQ.Clients

open Lib Packet

/-- `sessionWrap`: a session and the lock of its id -/
structure SessionWrap where
  s : Session Publish
  locked : Bool

/-- The parts of `clients.Manager` that `NewSession` keeps sessions in. -/
structure SessionManager where
  sessions : AList fun _ : GoString => SessionWrap
  sessionsCount : Int
  /-- The channel `quit` is closed. -/
  quit : Bool
  AllowReplace : Bool

/-- What happens to a session while nobody looks. -/
inductive SessionOp where
  | disconnect (now : Int) (p : DisconnectParams)
  | timer (now : Int)

namespace Session

/-- The connection ends if there is one, and the timer fires if it is armed. -/
def after (s : Session Publish) : List SessionOp → Session Publish × List (Event Publish)
  | [] => (s, [])
  | .disconnect now p :: ops =>
      let (s, first) := if s.isOnline then s.onDisconnect now p else (s, [])
      let (s, rest) := s.after ops
      (s, first ++ rest)
  | .timer now :: ops =>
      let (s, first) := if s.timer.isSome then s.timerCallback now else (s, [])
      let (s, rest) := s.after ops
      (s, first ++ rest)

/-- `session.stop` for a connection that is taken over; the state that it makes is dropped. -/
def halt (s : Session Publish) (now : Int) (p : DisconnectParams) :
    Session Publish × List (Event Publish) :=
  let (s, disconnected) :=
    if s.isOnline then s.onDisconnect now { p with Will := true } else (s, [])
  let s := { s with timer := none }
  let (s, closed) := if s.finalized then (s, []) else s.finalize .shutdown
  (s, disconnected ++ closed)

end Session

/-- The field `conn` of a session in `start`. -/
inductive Conn where
  | nil
  /-- `connection.New` has returned an error along with it. -/
  | failed
  | ready
  deriving DecidableEq, Repr

/-- What a call depends on besides its arguments. -/
structure Circumstances where
  now : Int
  /-- What `genClientID` returns. -/
  generated : GoString
  /-- What the old session does until `setOnline` looks at it. -/
  meanwhile : List SessionOp
  /-- How the connection of an old session ends when it is stopped. -/
  params : DisconnectParams
  /-- `connection.New` returns no error. -/
  allocated : Bool
  /-- The CONNACK packet can be written. -/
  written : Bool

/-- What a call leaves behind. -/
structure Admission where
  manager : SessionManager
  /-- The wrapper whose lock the call took. -/
  wrap : Option SessionWrap
  /-- The call of `start`: the connection of the session, and the code in the CONNACK packet. -/
  started : Option (Conn × ReasonCode)

/-- `ConnAck.SetReturnCode`; its error is ignored. -/
def setReturnCode (returnCode ret : ReasonCode) : ReasonCode :=
  if ret.isValidForType .CONNACK then ret else returnCode

/-- What `readSessionProperties` writes into `connection.PreConfig`. -/
structure PreConfig where
  SendQuota : Int
  MaxTxPacketSize : UInt32
  MaxTxTopicAlias : UInt16
  AuthMethod : GoString
  AuthData : Bytes

/-- The fields as `newConnectionPreConfig` leaves them. -/
def newConnectionPreConfig : PreConfig :=
  { SendQuota := 65535
    MaxTxPacketSize := 268435455
    MaxTxTopicAlias := 0
    AuthMethod := []
    AuthData := [] }

/-- A property in the type that the field has, or the value that was there. -/
def readProperty {α : Type} (h : Header) (id : PropertyID)
    (as : PropertyValue → Except PacketError α) (value : α) : α :=
  match h.propertyGet id with
  | none => value
  | some prop => (as prop).toOption.getD value

/-- `readSessionProperties`, the part about the connection; what it reads for the session is in
`request`. -/
def readSessionProperties (h : Header) (cc : PreConfig) : Except ReasonCode PreConfig :=
  let cc := { cc with
    SendQuota := readProperty h PropertyReceiveMaximum
      (fun prop => prop.asShort.map fun val : UInt16 => (val.toNat : Int)) cc.SendQuota
    MaxTxPacketSize := readProperty h PropertyMaximumPacketSize PropertyValue.asInt
      cc.MaxTxPacketSize
    MaxTxTopicAlias := readProperty h PropertyTopicAliasMaximum PropertyValue.asShort
      cc.MaxTxTopicAlias
    AuthMethod := readProperty h PropertyAuthMethod PropertyValue.asString cc.AuthMethod }
  if (h.propertyGet PropertyAuthData).isSome ∧ cc.AuthMethod.length = 0 then
    .error CodeProtocolError
  else .ok { cc with
    AuthData := readProperty h PropertyAuthData PropertyValue.asBinary cc.AuthData }

/-- The error of `PropertySet` on the CONNACK packet; the value has no part in it. -/
def respPropertySet (v : ProtocolVersion) (id : PropertyID) : Option PacketError :=
  if v ≠ ProtocolV50 then some .ErrNotSupported
  else
    match Property.empty.set .CONNACK id .foreign with
    | .error e => some e
    | .ok _ => none

/-- `configureSession`: the session and its connection, or an error. -/
def configureSession (h : Header) (pkt : Packet.Connect) (s : Session Publish)
    (c : Circumstances) : Except PacketError (Session Publish × Conn) :=
  let configured :=
    (s.reconfigure c.now true (request h pkt).reConfig false, if c.allocated then .ready else .failed)
  if ProtocolV50 ≤ h.version then
    match readSessionProperties h newConnectionPreConfig with
    | .error code => .error (.reason code)
    | .ok _ =>
        match respPropertySet h.version PropertyServerKeepAlive with
        | some e => .error e
        | none => .ok configured
  else .ok configured

namespace SessionManager

/-- `Delete` on the map of sessions and `Done` on their number, in `onSessionClose` and in
`NewSession`. -/
def remove (m : SessionManager) (id : GoString) : SessionManager :=
  { m with sessions := m.sessions.erase id, sessionsCount := m.sessionsCount - 1 }

/-- `Store` on the map of sessions and `Add` on their number. -/
def store (m : SessionManager) (id : GoString) (wrap : SessionWrap) : SessionManager :=
  { m with sessions := m.sessions.insert id wrap, sessionsCount := m.sessionsCount + 1 }

/-- The wrapper in the map, if it is still there, changes. -/
def update (m : SessionManager) (id : GoString) (wrap : SessionWrap) : SessionManager :=
  if id ∈ m.sessions then { m with sessions := m.sessions.insert id wrap } else m

/-- The manager hears of what a session does. -/
def signal (m : SessionManager) (id : GoString) : List (Event Publish) → SessionManager
  | [] => m
  | .signalClose _ :: events => (m.remove id).signal id events
  | .publish _ :: events | .shutdownSubscriber :: events => m.signal id events

/-- `checkServerStatus`: the code in the CONNACK packet afterwards. -/
def checkServerStatus (m : SessionManager) (v : ProtocolVersion) (returnCode : ReasonCode) :
    ReasonCode :=
  if m.quit then
    setReturnCode returnCode
      (if v = ProtocolV50 then CodeServerShuttingDown else CodeRefusedServerUnavailable)
  else returnCode

/-- The part of `loadSession` for an id that has a session, once its lock is taken. -/
def loadOld (m : SessionManager) (id : GoString) (v : ProtocolVersion) (c : Circumstances)
    (old : Session Publish) : SessionManager × SessionWrap × Option ReasonCode :=
  let wrap : SessionWrap := ⟨.new c.now, true⟩
  match old.setOnline with
  | (old, .isOnline) =>
      if m.AllowReplace then ((m.signal id (old.halt c.now c.params).2).store id wrap, wrap, none)
      else (m.update id ⟨old, false⟩, ⟨old, false⟩,
        some (if ProtocolV50 ≤ v then CodeInvalidClientID else CodeRefusedIdentifierRejected))
  | (old, .switched) => (m.update id ⟨old, true⟩, ⟨old, true⟩, none)
  | (_, .finalized) => (m.store id wrap, wrap, none)

/-- `loadSession`: the wrapper whose lock was taken, and the error. -/
def loadSession (m : SessionManager) (id : GoString) (v : ProtocolVersion) (c : Circumstances) :
    SessionManager × SessionWrap × Option ReasonCode :=
  match m.sessions.lookup id with
  | none => (m.store id ⟨.new c.now, true⟩, ⟨.new c.now, true⟩, none)
  | some oldWrap =>
      let (old, events) := oldWrap.s.after c.meanwhile
      (m.signal id events).loadOld id v c old

/-- `start` on the session in a wrapper. Without a connection it panics before it unlocks. -/
def start (wrap : SessionWrap) (conn : Conn) : SessionWrap :=
  ⟨{ wrap.s with isOnline := true }, if conn = .nil then wrap.locked else false⟩

/-- The deferred function of `NewSession` for a session. -/
def finish (m : SessionManager) (id : GoString) (wrap : SessionWrap) (conn : Conn)
    (returnCode : ReasonCode) (written : Bool) : Admission :=
  if written then
    ⟨m.update id (start wrap conn), some (start wrap conn), some (conn, returnCode)⟩
  else ⟨m.update id wrap, some wrap, none⟩

/-- The client id, which may be left to the server. -/
def clientID (pkt : Packet.Connect) (c : Circumstances) : GoString :=
  if pkt.clientID.length = 0 then c.generated else pkt.clientID

/-- `NewSession` for a CONNECT packet and the code that the CONNACK packet has so far. -/
def newSession (m : SessionManager) (h : Header) (pkt : Packet.Connect) (returnCode : ReasonCode)
    (c : Circumstances) : Admission :=
  let returnCode := m.checkServerStatus h.version returnCode
  if returnCode ≠ CodeSuccess then ⟨m, none, none⟩
  else
    let id := clientID pkt c
    match m.loadSession id h.version c with
    | (m, wrap, some _) => ⟨m, some wrap, none⟩
    | (m, wrap, none) =>
        match configureSession h pkt wrap.s c with
        | .ok (s, conn) => m.finish id { wrap with s } conn returnCode c.written
        | .error _ =>
            (m.remove id).finish id wrap .nil
              (setReturnCode returnCode (if h.version = ProtocolV50 then CodeUnspecifiedError
                else CodeRefusedServerUnavailable)) c.written

end SessionManager

/-- The number of times a session signals its close. -/
def closes (events : List (Event Publish)) : ℕ :=
  events.countP fun event => match event with
    | .signalClose _ => true
    | _ => false

/-- A session that has not been closed. -/
structure Session.Going (s : Session Publish) : Prop where
  finalized : s.finalized = false
  timer : s.isOnline = true → s.timer = none

/-- A session that has been closed. -/
structure Session.Over (s : Session Publish) : Prop where
  finalized : s.finalized = true
  isOnline : s.isOnline = false
  timer : s.timer = none

/-- Either the session goes on and signals nothing, or it is over and signals that once. -/
def Session.ClosesOnce (result : Session Publish × List (Event Publish)) : Prop :=
  (result.1.Going ∧ closes result.2 = 0) ∨ (result.1.Over ∧ closes result.2 = 1)

section Closing

variable {s : Session Publish}

theorem closes_append (first second : List (Event Publish)) :
    closes (first ++ second) = closes first + closes second := List.countP_append

theorem closes_publish (will : Option Publish) :
    closes (will.toList.map Event.publish) = 0 := by
  cases will <;> rfl

/-- A session without a connection and a timer that has not been closed. -/
structure Session.Idle (s : Session Publish) : Prop where
  finalized : s.finalized = false
  isOnline : s.isOnline = false
  timer : s.timer = none

theorem Session.Going.beginDisconnect (going : s.Going) (online : s.isOnline = true)
    (p : DisconnectParams) :
    (s.beginDisconnect p).1.Idle ∧ closes (s.beginDisconnect p).2 = 0 := by
  have timer := going.timer online
  simp only [Session.beginDisconnect]
  split <;> split
  · exact ⟨⟨going.finalized, rfl, timer⟩, closes_publish _⟩
  · exact ⟨⟨going.finalized, rfl, timer⟩, rfl⟩
  · exact ⟨⟨going.finalized, rfl, timer⟩, closes_publish _⟩
  · exact ⟨⟨going.finalized, rfl, timer⟩, rfl⟩

theorem Session.Idle.releaseSubscriber (idle : s.Idle) (p : DisconnectParams) :
    (s.releaseSubscriber p).1.Idle ∧ closes (s.releaseSubscriber p).2 = 0 := by
  unfold Session.releaseSubscriber
  split
  · exact ⟨⟨idle.finalized, idle.isOnline, idle.timer⟩, rfl⟩
  · exact ⟨idle, rfl⟩

theorem Session.finalized_runExpiry (s : Session Publish) (now : Int) (will : Bool) :
    (s.runExpiry now will).finalized = s.finalized := by
  have first : (s.delayWill will).1.finalized = s.finalized := by
    unfold Session.delayWill
    split <;> rfl
  have second : ∀ (s : Session Publish) period, (s.splitExpiry period).1.finalized = s.finalized := by
    intro s period
    unfold Session.splitExpiry
    split
    · rfl
    · split <;> rfl
  exact (second _ _).trans first

theorem Session.Idle.endDisconnect (idle : s.Idle) (now : Int) (p : DisconnectParams) :
    Session.ClosesOnce (s.endDisconnect now p) := by
  have finished : ∀ reason, Session.ClosesOnce (s.finalize reason) := fun _ =>
    .inr ⟨⟨rfl, idle.isOnline, idle.timer⟩, rfl⟩
  unfold Session.endDisconnect
  split
  · exact finished _
  · split
    · exact finished _
    · split
      · refine .inl ⟨⟨(Session.finalized_runExpiry _ _ _).trans idle.finalized, ?_⟩, rfl⟩
        intro online
        rw [(Session.runExpiry_keeps _ _ _).1] at online
        exact absurd (online.symm.trans idle.isOnline) (by simp)
      · exact .inl ⟨⟨idle.finalized, fun _ => idle.timer⟩, rfl⟩

theorem Session.Going.onDisconnect (going : s.Going) (online : s.isOnline = true) (now : Int)
    (p : DisconnectParams) : Session.ClosesOnce (s.onDisconnect now p) := by
  rcases going.beginDisconnect online p with ⟨idle, none₁⟩
  rcases idle.releaseSubscriber p with ⟨released, none₂⟩
  have counted : closes (s.onDisconnect now p).2 =
      closes (((s.beginDisconnect p).1.releaseSubscriber p).1.endDisconnect now p).2 := by
    change closes ((s.beginDisconnect p).2 ++ ((s.beginDisconnect p).1.releaseSubscriber p).2 ++
      (((s.beginDisconnect p).1.releaseSubscriber p).1.endDisconnect now p).2) = _
    rw [closes_append, closes_append, none₁, none₂, Nat.zero_add]
  rw [Session.ClosesOnce, counted]
  exact released.endDisconnect now p

theorem Session.Going.timerCallback (going : s.Going) (armed : s.timer.isSome = true) (now : Int) :
    Session.ClosesOnce (s.timerCallback now) := by
  rcases s with
    ⟨created, subscriber, will, expireIn, willDelay, kill, since, timer, finalized, online, subs⟩
  have running : finalized = false := going.finalized
  have offline : online = false := by
    by_contra there
    have stopped := going.timer (by simpa using there)
    rw [stopped] at armed
    cases armed
  subst running offline
  cases will <;> cases expireIn with
  | none => exact .inr ⟨⟨rfl, rfl, rfl⟩, rfl⟩
  | some val =>
      by_cases zero : val = 0
      · subst zero
        cases subscriber <;> exact .inr ⟨⟨rfl, rfl, rfl⟩, rfl⟩
      · refine .inl ⟨⟨?_, ?_⟩, ?_⟩ <;> simp [Session.timerCallback, zero, closes]

theorem Session.Over.after (finished : s.Over) (ops : List SessionOp) :
    (s.after ops).1 = s ∧ closes (s.after ops).2 = 0 := by
  induction ops with
  | nil => exact ⟨rfl, rfl⟩
  | cons op ops ih =>
      cases op <;> simp only [Session.after, finished.isOnline, finished.timer] <;> exact ih

/-- Whatever happens to a session, it is closed at most once. -/
theorem Session.Going.after (going : s.Going) (ops : List SessionOp) :
    Session.ClosesOnce (s.after ops) := by
  have chained : ∀ (result : Session Publish × List (Event Publish)) (ops : List SessionOp),
      Session.ClosesOnce result →
      (∀ s : Session Publish, s.Going → Session.ClosesOnce (s.after ops)) →
      Session.ClosesOnce ((result.1.after ops).1, result.2 ++ (result.1.after ops).2) := by
    rintro ⟨s, events⟩ ops (⟨going, none⟩ | ⟨finished, once⟩) rest
    · rw [Session.ClosesOnce, closes_append, none, Nat.zero_add]
      exact rest s going
    · have later := finished.after ops
      refine .inr ⟨by rw [later.1]; exact finished, ?_⟩
      rw [closes_append, once, later.2]
  induction ops generalizing s with
  | nil => exact .inl ⟨going, rfl⟩
  | cons op ops ih =>
      cases op with
      | disconnect now p =>
          refine chained (if s.isOnline then s.onDisconnect now p else (s, [])) ops ?_
            fun s going => ih going
          split
          · rename_i online
            exact going.onDisconnect online now p
          · exact .inl ⟨going, rfl⟩
      | timer now =>
          refine chained (if s.timer.isSome then s.timerCallback now else (s, [])) ops ?_
            fun s going => ih going
          split
          · rename_i armed
            exact going.timerCallback armed now
          · exact .inl ⟨going, rfl⟩

/-- A session that is taken over is closed once. -/
theorem Session.Going.halt (going : s.Going) (online : s.isOnline = true) (now : Int)
    (p : DisconnectParams) : closes (s.halt now p).2 = 1 := by
  have ended := going.onDisconnect online now { p with Will := true }
  simp only [Session.halt, if_pos online, closes_append]
  rcases ended with ⟨still, none⟩ | ⟨finished, once⟩
  · rw [none, if_neg (by rw [still.finalized]; decide)]
    rfl
  · rw [once, if_pos finished.finalized]
    rfl

end Closing

namespace SessionManager

variable {m : SessionManager} {id : GoString}

/-- The number of sessions is that of the entries of the map. -/
def Counted (m : SessionManager) : Prop := m.sessionsCount = m.sessions.entries.length

theorem length_kerase (member : id ∈ m.sessions) :
    (m.sessions.entries.kerase id).length + 1 = m.sessions.entries.length := by
  rcases List.exists_of_kerase (AList.mem_keys.mp member) with ⟨wrap, front, back, -, whole, erased⟩
  rw [erased, whole, List.length_append, List.length_append, List.length_cons]
  omega

theorem counted_store (counted : m.Counted) (absent : id ∉ m.sessions) (wrap : SessionWrap) :
    (m.store id wrap).Counted := by
  have same : m.sessions.entries.kerase id = m.sessions.entries := List.kerase_of_notMem_keys absent
  change m.sessionsCount + 1 = ((m.sessions.insert id wrap).entries.length : Int)
  rw [AList.entries_insert, same, List.length_cons, counted]
  push_cast
  rfl

theorem counted_remove (counted : m.Counted) (member : id ∈ m.sessions) :
    (m.remove id).Counted := by
  have length := length_kerase member
  change m.sessionsCount - 1 = ((m.sessions.entries.kerase id).length : Int)
  rw [counted]
  omega

theorem counted_update (counted : m.Counted) (wrap : SessionWrap) : (m.update id wrap).Counted := by
  unfold update
  split
  · rename_i member
    have length := length_kerase member
    change m.sessionsCount = ((m.sessions.insert id wrap).entries.length : Int)
    rw [AList.entries_insert, List.length_cons, counted]
    omega
  · exact counted

theorem mem_update (wrap : SessionWrap) : id ∈ (m.update id wrap).sessions ↔ id ∈ m.sessions := by
  unfold update
  split
  · rename_i member
    exact ⟨fun _ => member, fun _ => (AList.mem_insert _).mpr (.inl rfl)⟩
  · exact Iff.rfl

theorem notMem_remove : id ∉ (m.remove id).sessions := by
  intro member
  exact (AList.mem_erase.mp member).1 rfl

/-- What the manager hears removes the session once for every close. -/
theorem signal_none {events : List (Event Publish)} (none : closes events = 0) :
    m.signal id events = m := by
  induction events with
  | nil => rfl
  | cons event events ih =>
      cases event with
      | publish will => exact ih none
      | shutdownSubscriber => exact ih none
      | signalClose reason => simp [closes] at none

theorem signal_once {events : List (Event Publish)} (once : closes events = 1) :
    m.signal id events = m.remove id := by
  induction events with
  | nil => cases once
  | cons event events ih =>
      cases event with
      | publish will => exact ih once
      | shutdownSubscriber => exact ih once
      | signalClose reason =>
          have rest : closes events = 0 := by simpa [closes] using once
          exact @signal_none (m.remove id) id events rest

/-- The manager before a call: the sessions are counted, and the one of the id is not locked and has
not been closed. -/
structure Ready (m : SessionManager) (id : GoString) : Prop where
  counted : m.Counted
  unlocked : ∀ wrap, m.sessions.lookup id = some wrap → wrap.locked = false
  going : ∀ wrap, m.sessions.lookup id = some wrap → wrap.s.Going

/-- The session of the id is online when the call gets to it. -/
def Online (m : SessionManager) (id : GoString) (c : Circumstances) : Prop :=
  ∃ wrap, m.sessions.lookup id = some wrap ∧ (wrap.s.after c.meanwhile).1.isOnline = true

/-- What `loadSession` returns. -/
structure Loads (m : SessionManager) (id : GoString) (c : Circumstances)
    (result : SessionManager × SessionWrap × Option ReasonCode) : Prop where
  counted : result.1.Counted
  refused : result.2.2.isSome = true ↔ m.AllowReplace = false ∧ m.Online id c
  released : result.2.2.isSome = true → result.2.1.locked = false
  locked : result.2.2 = none → result.2.1.locked = true ∧ id ∈ result.1.sessions

/-- The old session is still there. -/
theorem loads_loadOld {old : Session Publish} (counted : m.Counted) (member : id ∈ m.sessions)
    (going : old.Going) (v : ProtocolVersion) (c : Circumstances)
    (online : m.Online id c ↔ old.isOnline = true) : Loads m id c (m.loadOld id v c old) := by
  unfold loadOld Session.setOnline
  by_cases there : old.isOnline = true
  · rw [if_pos there]
    dsimp only
    cases replace : m.AllowReplace with
    | true =>
        rw [if_pos rfl, signal_once (going.halt there c.now c.params)]
        refine ⟨counted_store (counted_remove counted member) notMem_remove _, ?_, nofun,
          fun _ => ⟨rfl, (AList.mem_insert _).mpr (.inl rfl)⟩⟩
        simp [replace]
    | false =>
        rw [if_neg (by decide)]
        refine ⟨counted_update counted _, ?_, fun _ => rfl, nofun⟩
        simp [replace, online, there]
  · rw [if_neg there, if_neg (by rw [going.finalized]; decide)]
    refine ⟨counted_update counted _, ?_, nofun, fun _ => ⟨rfl, (mem_update _).mpr member⟩⟩
    simp [online, there]

/-- The old session was closed while the call waited. -/
theorem loads_closed {old : Session Publish} (counted : m.Counted) (member : id ∈ m.sessions)
    (finished : old.Over) (v : ProtocolVersion) (c : Circumstances)
    (online : m.Online id c ↔ old.isOnline = true) :
    Loads m id c ((m.remove id).loadOld id v c old) := by
  unfold loadOld Session.setOnline
  rw [if_neg (by rw [finished.isOnline]; decide), if_pos finished.finalized]
  refine ⟨counted_store (counted_remove counted member) notMem_remove _, ?_, nofun,
    fun _ => ⟨rfl, (AList.mem_insert _).mpr (.inl rfl)⟩⟩
  simp [online, finished.isOnline]

theorem loads_loadSession (ready : m.Ready id) (v : ProtocolVersion) (c : Circumstances) :
    Loads m id c (m.loadSession id v c) := by
  unfold loadSession
  cases held : m.sessions.lookup id with
  | none =>
      have absent : id ∉ m.sessions := AList.lookup_eq_none.mp held
      refine ⟨counted_store ready.counted absent _, ?_, nofun,
        fun _ => ⟨rfl, (AList.mem_insert _).mpr (.inl rfl)⟩⟩
      simp [Online, held]
  | some oldWrap =>
      have member : id ∈ m.sessions := AList.lookup_isSome.mp (by simp [held])
      have online : m.Online id c ↔ (oldWrap.s.after c.meanwhile).1.isOnline = true := by
        constructor
        · rintro ⟨wrap, same, there⟩
          rw [held, Option.some.injEq] at same
          exact same ▸ there
        · exact fun there => ⟨oldWrap, held, there⟩
      change Loads m id c ((m.signal id (oldWrap.s.after c.meanwhile).2).loadOld id v c
        (oldWrap.s.after c.meanwhile).1)
      rcases (ready.going oldWrap held).after c.meanwhile with ⟨going, none⟩ | ⟨finished, once⟩
      · rw [signal_none none]
        exact loads_loadOld ready.counted member going v c online
      · rw [signal_once once]
        exact loads_closed ready.counted member finished v c online

end SessionManager

/-- A V5.0 client that sends authentication data names a method. -/
def Configurable (h : Header) : Prop :=
  ProtocolV50 ≤ h.version → (h.propertyGet PropertyAuthData).isSome = true →
    readProperty h PropertyAuthMethod PropertyValue.asString [] ≠ []

theorem readSessionProperties_spec (h : Header) :
    ((h.propertyGet PropertyAuthData).isSome = true ∧
        readProperty h PropertyAuthMethod PropertyValue.asString [] = [] ∧
        readSessionProperties h newConnectionPreConfig = .error CodeProtocolError) ∨
      (((h.propertyGet PropertyAuthData).isSome = true →
          readProperty h PropertyAuthMethod PropertyValue.asString [] ≠ []) ∧
        ∃ cc, readSessionProperties h newConnectionPreConfig = .ok cc) := by
  by_cases nameless : (h.propertyGet PropertyAuthData).isSome = true ∧
      (readProperty h PropertyAuthMethod PropertyValue.asString []).length = 0
  · exact .inl ⟨nameless.1, List.length_eq_zero_iff.mp nameless.2, if_pos nameless⟩
  · refine .inr ⟨fun data empty => nameless ⟨data, by rw [empty]; rfl⟩, _, if_neg nameless⟩

/-- Nothing else can go wrong in `configureSession`. -/
theorem configureSession_spec {h : Header} (known : h.version ≤ ProtocolV50)
    (pkt : Packet.Connect) (s : Session Publish) (c : Circumstances) :
    (Configurable h ∧ ∃ after, configureSession h pkt s c =
        .ok (after, if c.allocated then .ready else .failed)) ∨
      (¬Configurable h ∧ ∃ e, configureSession h pkt s c = .error e) := by
  unfold configureSession
  by_cases v50 : ProtocolV50 ≤ h.version
  · have same : h.version = ProtocolV50 := UInt8.le_antisymm known v50
    have settable : respPropertySet h.version PropertyServerKeepAlive = none := by
      rw [same]
      decide
    rw [if_pos v50]
    rcases readSessionProperties_spec h with ⟨data, nameless, run⟩ | ⟨named, cc, run⟩
    · rw [run]
      exact .inr ⟨fun fits => fits v50 data nameless, _, rfl⟩
    · simp only [run, settable]
      exact .inl ⟨fun _ => named, _, rfl⟩
  · rw [if_neg v50]
    exact .inl ⟨fun least => absurd least v50, _, rfl⟩

namespace SessionManager

variable {m : SessionManager}

theorem checkServerStatus_eq_success (m : SessionManager) (v : ProtocolVersion)
    (returnCode : ReasonCode) : m.checkServerStatus v returnCode = CodeSuccess ↔
      returnCode = CodeSuccess ∧ (m.quit = true → v = ProtocolV50) := by
  unfold checkServerStatus
  cases m.quit with
  | false => simp
  | true =>
      rw [if_pos rfl]
      by_cases v50 : v = ProtocolV50
      · -- the code for this version is not one that a CONNACK packet may have
        have unset : setReturnCode returnCode CodeServerShuttingDown = returnCode := by
          rw [setReturnCode, if_neg (by decide)]
        simp [v50, unset]
      · have set : setReturnCode returnCode CodeRefusedServerUnavailable =
            CodeRefusedServerUnavailable := by
          rw [setReturnCode, if_pos (by decide)]
        rw [if_neg v50, set]
        simp [v50, CodeRefusedServerUnavailable, CodeSuccess]

/-- A call that leaves everything in order. -/
structure Consistent (result : Admission) : Prop where
  started : ∀ conn returnCode, result.started = some (conn, returnCode) →
    conn = .ready ∧ returnCode = CodeSuccess
  released : ∀ wrap, result.wrap = some wrap → wrap.locked = false
  counted : result.manager.Counted

/-- The deferred function puts everything in order only if the connection is ready, the code is the
one for success and the packet can be written. -/
theorem consistent_finish {id : GoString} {wrap : SessionWrap} (counted : m.Counted)
    (locked : wrap.locked = true) (conn : Conn) (returnCode : ReasonCode) (written : Bool) :
    Consistent (m.finish id wrap conn returnCode written) ↔
      conn = .ready ∧ returnCode = CodeSuccess ∧ written = true := by
  unfold finish
  cases written with
  | false =>
      rw [if_neg (by decide)]
      refine ⟨fun consistent => ?_, fun both => absurd both.2.2 (by decide)⟩
      have released := consistent.released wrap rfl
      rw [locked] at released
      cases released
  | true =>
      rw [if_pos rfl]
      constructor
      · intro consistent
        have both := consistent.started conn returnCode rfl
        exact ⟨both.1, both.2, rfl⟩
      · rintro ⟨rfl, rfl, -⟩
        refine ⟨?_, ?_, counted_update counted _⟩
        · rintro conn returnCode ⟨⟩
          exact ⟨rfl, rfl⟩
        · rintro started ⟨⟩
          rfl

/-- For every CONNECT packet and all circumstances, the call leaves everything in order exactly when
it is turned away before it gets a session, or when nothing goes wrong from there on. -/
theorem newSession_consistent_iff {v : ProtocolVersion} {buf : Bytes} {h : Header}
    {pkt : Packet.Connect} {n : ℕ} (decoded : decode v buf = .ok (.control h (.connect pkt), n))
    (returnCode : ReasonCode) {c : Circumstances} (ready : m.Ready (clientID pkt c)) :
    Consistent (m.newSession h pkt returnCode c) ↔
      (returnCode ≠ CodeSuccess ∨ (m.quit = true ∧ h.version ≠ ProtocolV50) ∨
          (m.AllowReplace = false ∧ m.Online (clientID pkt c) c)) ∨
        (Configurable h ∧ c.allocated = true ∧ c.written = true) := by
  have known := (accepted_of_decode decoded).version
  have admitted := m.checkServerStatus_eq_success h.version returnCode
  unfold newSession
  by_cases success : m.checkServerStatus h.version returnCode = CodeSuccess
  · have fine := admitted.mp success
    have open_ : ¬(m.quit = true ∧ h.version ≠ ProtocolV50) := fun both => both.2 (fine.2 both.1)
    simp only [success, ne_eq, not_true_eq_false, if_false]
    have loads := loads_loadSession ready h.version c
    generalize m.loadSession (clientID pkt c) h.version c = result at loads
    rcases result with ⟨after, wrap, _ | err⟩
    · -- the call has a session and its lock
      have kept := loads.locked rfl
      have free : ¬(m.AllowReplace = false ∧ m.Online (clientID pkt c) c) :=
        fun refused => absurd (loads.refused.mpr refused) (by simp)
      simp only [fine.1, open_, free, not_true_eq_false, false_or]
      rcases configureSession_spec known pkt wrap.s c with
        ⟨configurable, s, run⟩ | ⟨wrong, e, run⟩
      · simp only [run]
        rw [@consistent_finish after _ { wrap with s } loads.counted kept.1]
        cases c.allocated <;> simp [configurable]
      · simp only [run]
        rw [consistent_finish (counted_remove loads.counted kept.2) kept.1]
        simp [wrong]
    · -- the id is online and may not be replaced
      have refused := loads.refused.mp rfl
      simp only [refused, and_self, or_true, true_or, iff_true]
      refine ⟨?_, ?_, loads.counted⟩
      · intro conn returnCode started
        cases started
      · rintro other ⟨⟩
        exact loads.released rfl
  · rw [if_pos success]
    have away : returnCode ≠ CodeSuccess ∨ (m.quit = true ∧ h.version ≠ ProtocolV50) := by
      by_contra admits
      rw [not_or, not_not, not_and, not_not] at admits
      exact success (admitted.mpr admits)
    refine ⟨fun _ => .inl ?_, fun _ => ⟨?_, ?_, ready.counted⟩⟩
    · rcases away with other | shutting
      · exact .inl other
      · exact .inr (.inl shutting)
    · intro conn returnCode started
      cases started
    · intro wrap held
      cases held

/-- A manager without sessions. -/
def emptyManager : SessionManager := ⟨∅, 0, false, true⟩

/-- Nothing goes wrong outside of the call. -/
def sampleCircumstances : Circumstances := ⟨0, [], [], ⟨none, true, false⟩, true, true⟩

theorem emptyManager_ready (id : GoString) : emptyManager.Ready id :=
  ⟨rfl, fun _ held => absurd held (by simp [emptyManager]),
    fun _ held => absurd held (by simp [emptyManager])⟩

theorem emptyManager_consistent :
    Consistent (emptyManager.newSession (.new ProtocolV311 .CONNECT) (sampleWill 0) CodeSuccess
      sampleCircumstances) := by
  refine (newSession_consistent_iff decode_sampleWillFrame CodeSuccess (emptyManager_ready _)).mpr
    (.inr ⟨?_, rfl, rfl⟩)
  intro v50
  exact absurd v50 (by decide)

/-- A V5.0 client sends authentication data without a method. -/
def sampleAuthFrame : Bytes :=
  [0x10, 18, 0, 4, 0x4D, 0x51, 0x54, 0x54, 5, 0x02, 0, 60, 4, 0x16, 0, 1, 0x78, 0, 1, 0x63]

def sampleAuthHeader : Header :=
  { Header.new ProtocolV50 .CONNECT with
    properties := ⟨(∅ : PropertyMap).insert PropertyAuthData (.bytes [0x78]), 4⟩ }

def sampleAuth : Packet.Connect :=
  { keepAlive := 60
    connectFlags := 0x02
    clientID := [0x63]
    username := []
    password := []
    willTopic := []
    willMessage := [] }

theorem decode_sampleAuthFrame :
    decode ProtocolV50 sampleAuthFrame =
      .ok (.control sampleAuthHeader (.connect sampleAuth), 20) := rfl

theorem newSession_sampleAuth :
    (emptyManager.newSession sampleAuthHeader sampleAuth CodeSuccess sampleCircumstances).started =
      some (.nil, CodeUnspecifiedError) := rfl

/-- Its session is started without a connection and after a refusal. -/
theorem sampleAuth_started :
    ∃ h pkt n, decode ProtocolV50 sampleAuthFrame = .ok (.control h (.connect pkt), n) ∧
      emptyManager.Ready (clientID pkt sampleCircumstances) ∧
      (emptyManager.newSession h pkt CodeSuccess sampleCircumstances).started =
        some (.nil, CodeUnspecifiedError) ∧
      ¬Consistent (emptyManager.newSession h pkt CodeSuccess sampleCircumstances) := by
  refine ⟨sampleAuthHeader, sampleAuth, 20, decode_sampleAuthFrame, emptyManager_ready _,
    newSession_sampleAuth, fun consistent => ?_⟩
  have started := (consistent.started .nil CodeUnspecifiedError newSession_sampleAuth).1
  cases started

end SessionManager

end VolantMQ.Clients
