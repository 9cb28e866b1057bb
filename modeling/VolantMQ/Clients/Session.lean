import Mathlib.Data.Option.Basic
import VolantMQ.Lib.Run
import VolantMQ.Packet.Publish

/-!
# Sessions and their timer

A session outlives its connection by its expiry interval, and the will of the connection is
published only after the will delay. One timer serves both: `runExpiry` arms it for whichever comes
first and takes that time off the expiry interval, and `timerCallback` arms it again for the rest.

The timeline below puts a clock under one session: connections begin, disconnect and are resumed at
any time, and the timer fires at the instant it was armed for. For every connection it keeps what
was asked for and what the session did. The session does not look into a will, so its type is a
parameter.
-/

namespace VolantMQ.Clients

open Lib Packet

/-- `time.Second`: instants and durations are in nanoseconds. -/
def second : Int := 1000000000

/-- The duration of a number of seconds. -/
def seconds (n : UInt32) : Int := n.toNat * second

/-- `exitReason` -/
inductive ExitReason where
  | clean
  | shutdown
  | expired
  deriving DecidableEq, Repr

/-- `switchStatus` -/
inductive SwitchStatus where
  | switched
  | isOnline
  | finalized
  deriving DecidableEq, Repr

/-- `sessionReConfig` -/
structure ReConfig (ω : Type) where
  will : Option ω
  expireIn : Option UInt32
  willDelay : UInt32
  killOnDisconnect : Bool

/-- The fields of `connection.DisconnectParams` that the session reads, and whether the subscriber
has subscriptions. -/
structure DisconnectParams where
  ExpireAt : Option UInt32
  Will : Bool
  HasSubscriptions : Bool

/-- What a session does to the rest of the broker. -/
inductive Event (ω : Type) where
  | publish (will : ω)
  | shutdownSubscriber
  | signalClose (reason : ExitReason)

/-- The parts of `session` that the timer is about. -/
structure Session (ω : Type) where
  createdAt : Int
  /-- The subscriber is not `nil`. -/
  subscriber : Bool
  will : Option ω
  expireIn : Option UInt32
  willDelay : UInt32
  killOnDisconnect : Bool
  expiringSince : Int
  /-- When the timer fires, if it is armed. -/
  timer : Option Int
  finalized : Bool
  /-- The channel `isOnline` is open. -/
  isOnline : Bool
  /-- The operands of every subtraction of 32-bit values. -/
  subtractions : List (UInt32 × UInt32)

namespace Session

variable {ω : Type}

/-- `newSession` -/
def new (createdAt : Int) : Session ω :=
  { createdAt
    subscriber := false
    will := none
    expireIn := none
    willDelay := 0
    killOnDisconnect := false
    expiringSince := 0
    timer := none
    finalized := false
    isOnline := false
    subtractions := [] }

/-- The first part of `runExpiry`: the will is forgotten unless it is to be delayed. -/
def delayWill (s : Session ω) (will : Bool) : Session ω × UInt32 :=
  if will ∧ s.will.isSome ∧ 0 < s.willDelay then (s, s.willDelay) else ({ s with will := none }, 0)

/-- The second part of `runExpiry`: what is left of the expiry interval when the timer fires. -/
def splitExpiry (s : Session ω) (timerPeriod : UInt32) : Session ω × UInt32 :=
  match s.expireIn with
  | none => (s, timerPeriod)
  | some expireIn =>
      if 0 < timerPeriod ∧ timerPeriod < expireIn then
        ({ s with
            expireIn := some (expireIn - timerPeriod)
            subtractions := s.subtractions ++ [(expireIn, timerPeriod)] }, timerPeriod)
      else ({ s with expireIn := some 0 }, expireIn)

def runExpiry (s : Session ω) (now : Int) (will : Bool) : Session ω :=
  let (s, timerPeriod) := s.delayWill will
  let (s, timerPeriod) := s.splitExpiry timerPeriod
  { s with expiringSince := now, timer := some (now + seconds timerPeriod) }

def reconfigure (s : Session ω) (now : Int) (subscriber : Bool) (c : ReConfig ω)
    (runExpiry : Bool) : Session ω :=
  let s := { s with
    subscriber
    will := c.will
    expireIn := c.expireIn
    willDelay := c.willDelay
    killOnDisconnect := c.killOnDisconnect
    finalized := false }
  if runExpiry then s.runExpiry now true else s

/-- `setOnline`; the timer is stopped if the session is offline. -/
def setOnline (s : Session ω) : Session ω × SwitchStatus :=
  if s.isOnline then (s, .isOnline)
  else ({ s with timer := none }, if s.finalized then .finalized else .switched)

/-- `signalClose` and the flag `finalized`. -/
def finalize (s : Session ω) (reason : ExitReason) : Session ω × List (Event ω) :=
  ({ s with finalized := true }, [.signalClose reason])

/-- The part of `onDisconnect` up to the publication of the will. -/
def beginDisconnect (s : Session ω) (p : DisconnectParams) : Session ω × List (Event ω) :=
  let s := { s with
    isOnline := false
    expireIn := if p.ExpireAt.isSome then p.ExpireAt else s.expireIn }
  let s := { s with killOnDisconnect := s.killOnDisconnect || s.expireIn == some 0 }
  if p.Will ∧ (s.killOnDisconnect ∨ s.willDelay = 0) then
    ({ s with will := none }, s.will.toList.map .publish)
  else (s, [])

/-- The part of `onDisconnect` that lets go of the subscriber. -/
def releaseSubscriber (s : Session ω) (p : DisconnectParams) : Session ω × List (Event ω) :=
  if s.killOnDisconnect ∨ !p.HasSubscriptions then
    ({ s with subscriber := false }, [.shutdownSubscriber])
  else (s, [])

/-- The last part of `onDisconnect`: the session ends or starts its timer. -/
def endDisconnect (s : Session ω) (now : Int) (p : DisconnectParams) :
    Session ω × List (Event ω) :=
  if s.killOnDisconnect then s.finalize .clean
  else if s.expireIn.isNone ∧ s.willDelay = 0 then s.finalize .shutdown
  else if (s.expireIn.isSome ∧ s.expireIn ≠ some 0) ∨ 0 < s.willDelay then
    (({ s with expireIn := if p.ExpireAt.isSome then p.ExpireAt else s.expireIn }).runExpiry now
      p.Will, [])
  else (s, [])

def onDisconnect (s : Session ω) (now : Int) (p : DisconnectParams) :
    Session ω × List (Event ω) :=
  let (s, first) := s.beginDisconnect p
  let (s, second) := s.releaseSubscriber p
  let (s, third) := s.endDisconnect now p
  (s, first ++ second ++ third)

/-- `timerCallback`, which runs when the timer has fired. -/
def timerCallback (s : Session ω) (now : Int) : Session ω × List (Event ω) :=
  let published := s.will.toList.map .publish
  let s := { s with timer := none }
  let s := if s.will.isSome then { s with will := none, willDelay := 0 } else s
  match s.expireIn with
  | none => let (s, closed) := s.finalize .shutdown; (s, published ++ closed)
  | some val =>
      if val = 0 then
        let released := if s.subscriber then [.shutdownSubscriber] else []
        let (s, closed) := s.finalize .expired
        (s, published ++ released ++ closed)
      else ({ s with expireIn := some 0, timer := some (now + seconds val) }, published)

/-- The timer fires at once if it is due. -/
def fire (s : Session ω) (now : Int) : Session ω × List (Event ω) :=
  match s.timer with
  | some due => if due ≤ now then s.timerCallback now else (s, [])
  | none => (s, [])

end Session

/-- What a CONNECT packet asks for. -/
structure Connect (ω : Type) where
  version : ProtocolVersion
  clean : Bool
  will : Option ω
  /-- The property `PropertySessionExpiryInterval`. -/
  sessionExpiry : Option UInt32
  /-- The property `PropertyWillDelayInterval`, or zero. -/
  willDelayInterval : UInt32

/-- `configureSession`: V5.0 requests have properties, and a session that ends with its connection
is marked. -/
def Connect.reConfig {ω : Type} (req : Connect ω) : ReConfig ω :=
  let expireIn := if ProtocolV50 ≤ req.version then req.sessionExpiry else none
  { will := req.will
    expireIn
    willDelay := if ProtocolV50 ≤ req.version then req.willDelayInterval else 0
    killOnDisconnect := (req.version ≤ ProtocolV311 ∧ req.clean) ∨ expireIn = some 0 }

/-- How a connection ends: whether with its will, and the property
`PropertySessionExpiryInterval` of its DISCONNECT packet if there was one. -/
structure Ending where
  will : Bool
  sessionExpiry : Option UInt32
  hasSubscriptions : Bool

/-- The field `ExpireIn` of the connection when it is closed: `processIncoming` does not let a
DISCONNECT packet prolong a session that was to end with its connection. -/
def Connect.expireAt {ω : Type} (req : Connect ω) (ending : Ending) : Option UInt32 :=
  let expireIn := req.reConfig.expireIn
  match ending.sessionExpiry with
  | none => expireIn
  | some val =>
      if req.version = ProtocolV50 ∧ ¬(expireIn = some 0 ∧ val ≠ 0) then some val else expireIn

/-- One connection of the session: how it ended, when the next one began, and what the session did
from its beginning to that of the next one. -/
structure Episode (ω : Type) where
  request : Connect ω
  ended : Option (Int × Ending)
  resumed : Option Int
  events : List (Int × Event ω)

/-- A session with a clock. -/
structure Timeline (ω : Type) where
  now : Int
  session : Session ω
  current : Option (Episode ω)
  past : List (Episode ω)

namespace Timeline

variable {ω : Type}

/-- A session that has not had a connection yet. -/
def new (now : Int) : Timeline ω := ⟨now, .new now, none, []⟩

/-- What can happen. -/
inductive Op (ω : Type) where
  | connect (request : Connect ω)
  | disconnect (ending : Ending)
  | tick

/-- Write down what the session did. -/
def record (s : Timeline ω) (result : Session ω × List (Event ω)) : Timeline ω :=
  { s with
    session := result.1
    current := s.current.map fun episode =>
      { episode with events := episode.events ++ result.2.map fun event => (s.now, event) } }

/-- Let the timer fire if it is due. -/
def settle (s : Timeline ω) : Timeline ω := s.record (s.session.fire s.now)

/-- `configureSession` and `start` on a session for a new connection. -/
def begin (s : Timeline ω) (session : Session ω) (request : Connect ω) : Timeline ω :=
  { s with
    session := { session.reconfigure s.now true request.reConfig false with isOnline := true }
    current := some ⟨request, none, none, []⟩
    past := s.past ++
      (s.current.map fun episode => { episode with resumed := some s.now }).toList }

/-- `loadSession`: an online session is left alone, and one that was finalized is replaced by a new
one. -/
def connect (s : Timeline ω) (request : Connect ω) : Timeline ω :=
  match s.session.setOnline with
  | (_, .isOnline) => s
  | (session, .switched) => s.begin session request
  | (session, .finalized) =>
      s.begin { (.new s.now : Session ω) with subtractions := session.subtractions } request

/-- The connection is closed. -/
def disconnect (s : Timeline ω) (ending : Ending) : Timeline ω :=
  match s.current with
  | some episode =>
      if s.session.isOnline then
        (({ s with current := some { episode with ended := some (s.now, ending) } } :
            Timeline ω).record (s.session.onDisconnect s.now
              ⟨episode.request.expireAt ending, ending.will, ending.hasSubscriptions⟩)).settle
      else s
  | none => s

/-- One step. The clock advances by one unit at a time. -/
def step (s : Timeline ω) : Op ω → Timeline ω
  | .connect request => s.connect request
  | .disconnect ending => s.disconnect ending
  | .tick => ({ s with now := s.now + 1 } : Timeline ω).settle

/-- The connections of the session, the current one last. -/
def episodes (s : Timeline ω) : List (Episode ω) := s.past ++ s.current.toList

end Timeline

end VolantMQ.Clients
