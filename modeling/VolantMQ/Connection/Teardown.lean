import VolantMQ.Lib.Run
import VolantMQ.Lib.Threads

/-!
# Taking a connection down

`onConnectionClose` runs once, in whichever goroutine calls it first, while the transmitter, the
receiver, the netpoll and the publishers go on. It closes the channel `quit`, waits for the
transmitter, closes the channel `txAvailable` unless there is a token in it, closes the socket,
waits for the receiver, and calls `OnDisconnect`.

The others look at `quit` before they send on `txAvailable` or start a routine, but not in the same
step. Who has looked just before `quit` is closed may send on a closed channel, or start a routine
that nobody waits for. The main result says that this is all that can go wrong.
-/

namespace VolantMQ.Connection

open Lib

/-- Where a call of `gPush`, `qPush` or `signalQuota` is, behind its change of a queue. -/
inductive PushPlace where
  /-- Before `txSignalAvailable` looks at `quit`. -/
  | signal
  /-- Before the send on `txAvailable`. -/
  | send
  /-- Before `txRun` looks at `quit`. -/
  | run
  /-- Before the compare-and-swap. -/
  | swap
  /-- Before `txWg.Wait`. -/
  | wait
  /-- Before `txWg.Add`. -/
  | go
  deriving DecidableEq, Repr

/-- Where a call of `rxRun` is. -/
inductive PollPlace where
  | run
  | swap
  | wait
  | go
  deriving DecidableEq, Repr

/-- What `txRoutine` does at the end of the case of `txAvailable`. -/
inductive TxAfter where
  | reset
  | flush
  | nothing
  deriving DecidableEq, Repr

/-- Where a goroutine is in `txRoutine`. -/
inductive TxPlace where
  | loop
  | select
  /-- Before `popPackets`. -/
  | pop
  /-- Before `txSignalAvailable` looks at `quit`. -/
  | signal (after : TxAfter)
  | send (after : TxAfter)
  /-- In `flushBuffers`, with something to write, in the case of the timer or not, with more packets
  in the queues or not. -/
  | write (tick more : Bool)
  /-- Before as many stores of zero into `txRunning`. -/
  | store (times : ℕ)
  /-- Before the store of zero with which it returns. -/
  | exit
  /-- Before `txWg.Done`. -/
  | done
  deriving DecidableEq, Repr

/-- A goroutine in `txRoutine`, and whether its `err` is set. -/
structure TxThread where
  err : Bool
  place : TxPlace
  deriving DecidableEq, Repr

/-- Where a goroutine is in `rxRoutine`. -/
inductive RxPlace where
  /-- Before `bufio.NewReader`. -/
  | start
  /-- Before the condition of the loop, with the error that was met, if any, and whether it is a
  reason code. -/
  | loop (err : Option Bool)
  /-- In `readPacket`. -/
  | read
  /-- In `processIncoming`, with so many packets still to push. -/
  | handle (pushes : ℕ)
  | push (at_ : PushPlace) (pushes : ℕ)
  /-- Before the store of zero into `rxRunning`. -/
  | store (reason : Bool)
  /-- Before `EventPoll.Resume`. -/
  | resume
  /-- Before `rxWg.Done`. -/
  | done (err : Bool)
  deriving DecidableEq, Repr

/-- A goroutine in `rxRoutine`. -/
structure RxThread where
  /-- Its reader was given a nil `Conn`. -/
  void : Bool
  /-- What its reader has read ahead. -/
  buffer : List ℕ
  place : RxPlace
  deriving DecidableEq, Repr

/-- How far `onConnectionClose` has come: before closing `quit`, stopping the netpoll, the store of
two into `txRunning`, `txWg.Wait`, the `select` on `txAvailable`, closing `isOnline` and the lock
and `wgOnline.Wait` of `Subscriber.Offline`, the DISCONNECT packet, closing the socket,
`rxWg.Wait`, clearing `Conn`, and `OnDisconnect`. -/
inductive Closer where
  | idle
  | quit
  | stopPoll
  | shut
  | txWait
  | drain
  | offline
  | lock
  | offlineWait
  | farewell
  | close
  | rxWait
  | clear
  | notify
  | finished
  deriving DecidableEq, Repr

/-- How far the function of `onConnectionClose` has come, as a number. -/
def Closer.rank : Closer → ℕ
  | .idle => 0
  | .quit => 1
  | .stopPoll => 2
  | .shut => 3
  | .txWait => 4
  | .drain => 5
  | .offline => 6
  | .lock => 7
  | .offlineWait => 8
  | .farewell => 9
  | .close => 10
  | .rxWait => 11
  | .clear => 12
  | .notify => 13
  | .finished => 14

/-- `s.Conn` -/
inductive Socket where
  | opened
  | closed
  | gone
  deriving DecidableEq, Repr

/-- The parts of `connection.Type` that matter for its end, and the goroutines that use it. -/
structure Teardown where
  quit : Bool
  /-- The netpoll calls `rxRun`. -/
  polled : Bool
  /-- The subscriber gives messages to the connection. -/
  online : Bool
  txRunning : ℕ
  rxRunning : Bool
  /-- The channel `txAvailable` is full. -/
  token : Bool
  /-- The channel `txAvailable` is closed. -/
  sealed : Bool
  /-- `txTimer` is running. -/
  timer : Bool
  /-- The channel of `txTimer` is full. -/
  tick : Bool
  /-- There is a keep-alive interval. -/
  keepAlive : Bool
  /-- `keepAliveTimer` is not nil. -/
  keepAliveTimer : Bool
  Conn : Socket
  closer : Closer
  /-- The calls of `onConnectionClose` that have not come to its `Once` yet. -/
  callers : ℕ
  /-- The calls of `Subscriber.Publish` that have found `isOnline` open and not come to
  `wgOnline.Add` yet. -/
  joining : ℕ
  pushers : List PushPlace
  /-- The calls of `rxRun`, and whether they were told that the socket is broken. -/
  polls : List (PollPlace × Bool)
  transmitters : List TxThread
  receivers : List RxThread
  /-- What the client has sent and nobody has read, as the number of packets that are pushed in
  response. -/
  incoming : List ℕ
  /-- The number of calls of `OnDisconnect`. -/
  disconnected : ℕ
  panicked : Bool

/-- A case of the `select` in `txRoutine`. -/
inductive TxPick where
  | quit
  | timer
  | available
  deriving DecidableEq, Repr

/-- What is left open about a step. -/
structure TeardownChoice where
  pick : TxPick
  after : TxAfter
  /-- There are packets in the queues. -/
  more : Bool
  /-- There is nothing to write. -/
  empty : Bool
  /-- A PUBLISH that needs an identifier is at the front of its queue. -/
  acquire : Bool
  /-- A write does not return. -/
  block : Bool
  /-- A write, a read, a handler or `Resume` fails. -/
  fail : Bool
  /-- The error is a reason code. -/
  reason : Bool
  /-- How many packets a reader reads ahead. -/
  ahead : ℕ

/-- Who takes the next step. -/
inductive Goroutine where
  | caller
  | closer
  | joiner
  | pusher (i : ℕ)
  | poller (i : ℕ)
  | transmitter (i : ℕ)
  | receiver (i : ℕ)
  deriving DecidableEq, Repr

namespace Teardown

/-- A connection after `Start`, with a keep-alive interval or not. -/
def start (keepAlive : Bool) : Teardown :=
  { quit := false
    polled := true
    online := true
    txRunning := 1
    rxRunning := false
    token := true
    sealed := false
    timer := false
    tick := false
    keepAlive
    keepAliveTimer := keepAlive
    Conn := .opened
    closer := .idle
    callers := 0
    joining := 0
    pushers := []
    polls := []
    transmitters := [⟨false, .loop⟩]
    receivers := []
    incoming := []
    disconnected := 0
    panicked := false }

/-- `txSignalAvailable` and `txRun`; without a place the call has returned. -/
def push (s : Teardown) : PushPlace → Teardown × Option PushPlace
  | .signal => (s, some (if s.quit then .run else .send))
  | .send =>
      if s.sealed then ({ s with panicked := true }, none)
      else ({ s with token := true }, some .run)
  | .run => (s, if s.quit then none else some .swap)
  | .swap => if s.txRunning = 0 then ({ s with txRunning := 1 }, some .wait) else (s, none)
  | .wait => (s, some (if s.transmitters.isEmpty then .go else .wait))
  | .go => ({ s with transmitters := s.transmitters ++ [⟨false, .loop⟩] }, none)

/-- `rxRun` -/
def poll (s : Teardown) (i : ℕ) (exit : Bool) : PollPlace → Teardown
  | .run =>
      { s with polls := replaceAt s.polls i (if s.quit then [] else [(.swap, exit)]) }
  | .swap =>
      if s.rxRunning then { s with polls := replaceAt s.polls i [] }
      else { s with rxRunning := true, polls := replaceAt s.polls i [(.wait, exit)] }
  | .wait =>
      if s.receivers.isEmpty then { s with polls := replaceAt s.polls i [(.go, exit)] } else s
  | .go =>
      { s with
        polls := replaceAt s.polls i []
        receivers := s.receivers ++ [⟨false, [], if exit then .done true else .start⟩] }

/-- The case of the timer after a write that has not failed. -/
def ticked (s : Teardown) (i : ℕ) (more : Bool) : Teardown :=
  { s with
    transmitters :=
      replaceAt s.transmitters i [⟨false, if more then .signal .nothing else .store 1⟩] }

/-- The case of `txAvailable` comes to its end. -/
def endCase (s : Teardown) (i : ℕ) (err more : Bool) : TxAfter → Teardown
  | .reset => { s with timer := true, transmitters := replaceAt s.transmitters i [⟨err, .loop⟩] }
  | .flush =>
      { s with
        timer := false
        transmitters := replaceAt s.transmitters i [⟨err, .write false more⟩] }
  | .nothing => { s with transmitters := replaceAt s.transmitters i [⟨err, .loop⟩] }

/-- The `select` of `txRoutine`; the case of `quit` if it is ready and the picked one is not. -/
def select (s : Teardown) (i : ℕ) (err : Bool) (c : TeardownChoice) : Teardown :=
  if c.pick = .timer ∧ s.tick = true then
    let s := { s with tick := false }
    if c.empty then s.ticked i c.more
    else { s with transmitters := replaceAt s.transmitters i [⟨err, .write true false⟩] }
  else if c.pick = .available ∧ (s.token || s.sealed) = true then
    { s with token := false, transmitters := replaceAt s.transmitters i [⟨err, .pop⟩] }
  else if s.quit then { s with transmitters := replaceAt s.transmitters i [⟨true, .exit⟩] }
  else s

/-- A packet from each queue; after `quit` is closed `qPopPacket` clears `txRunning` instead of
taking an identifier. -/
def popPackets (s : Teardown) (i : ℕ) (err : Bool) (c : TeardownChoice) : Teardown :=
  let s := { s with txRunning := if s.quit && c.acquire then 0 else s.txRunning }
  if c.more then { s with transmitters := replaceAt s.transmitters i [⟨err, .signal c.after⟩] }
  else s.endCase i err false c.after

/-- `flushBuffers` returns. -/
def written (s : Teardown) (i : ℕ) (tick more : Bool) (c : TeardownChoice) : Teardown :=
  let move (err : Bool) (place : TxPlace) : Teardown :=
    { s with transmitters := replaceAt s.transmitters i [⟨err, place⟩] }
  if tick then if c.fail then move true .exit else s.ticked i c.more
  else if c.fail then move true (.store (if more then 1 else 2))
  else move false (.store (if more then 0 else 1))

/-- `txRoutine` -/
def transmit (s : Teardown) (i : ℕ) (c : TeardownChoice) (t : TxThread) : Teardown :=
  let move (place : TxPlace) : Teardown :=
    { s with transmitters := replaceAt s.transmitters i [⟨t.err, place⟩] }
  match t.place with
  | .loop => move (if s.txRunning = 1 then .select else .done)
  | .select => s.select i t.err c
  | .pop => s.popPackets i t.err c
  | .signal after => if s.quit then s.endCase i t.err true after else move (.send after)
  | .send after =>
      if s.sealed then { s with panicked := true }
      else ({ s with token := true } : Teardown).endCase i t.err true after
  | .write tick more =>
      if s.Conn = .gone then { s with panicked := true }
      else if c.block then s
      else s.written i tick more c
  | .store 0 => move .loop
  | .store (times + 1) =>
      { s with
        txRunning := 0
        transmitters := replaceAt s.transmitters i [⟨t.err, .store times⟩] }
  | .exit =>
      { s with txRunning := 0, transmitters := replaceAt s.transmitters i [⟨t.err, .done⟩] }
  | .done =>
      { s with
        transmitters := replaceAt s.transmitters i []
        callers := s.callers + if t.err then 1 else 0 }

/-- `readPacket`; a reader that is not void fills its buffer while the socket is open. -/
def readPacket (s : Teardown) (i : ℕ) (c : TeardownChoice) (t : RxThread) : Teardown :=
  let move (t : RxThread) : Teardown := { s with receivers := replaceAt s.receivers i [t] }
  match t.buffer with
  | pushes :: buffer =>
      move { t with buffer, place := if c.fail then .store c.reason else .handle pushes }
  | [] =>
      if t.void then { s with panicked := true }
      else if s.Conn ≠ .opened ∨ c.fail = true then move { t with place := .store c.reason }
      else
        { s with
          incoming := s.incoming.drop (c.ahead + 1)
          receivers :=
            replaceAt s.receivers i [{ t with buffer := s.incoming.take (c.ahead + 1) }] }

/-- `rxRoutine` -/
def receive (s : Teardown) (i : ℕ) (c : TeardownChoice) (t : RxThread) : Teardown :=
  let move (place : RxPlace) : Teardown :=
    { s with receivers := replaceAt s.receivers i [{ t with place }] }
  match t.place with
  | .start =>
      { s with
        receivers :=
          replaceAt s.receivers i [{ t with void := s.Conn = .gone, place := .loop none }] }
  | .loop err =>
      if s.rxRunning then
        if s.keepAlive && !s.keepAliveTimer then { s with panicked := true } else move .read
      else move (if err = some true then .done true else .resume)
  | .read => s.readPacket i c t
  | .handle 0 => move (if c.fail then .store c.reason else .loop none)
  | .handle (pushes + 1) => move (.push .signal pushes)
  | .push at_ pushes =>
      let (next, place) := s.push at_
      { next with
        receivers := replaceAt s.receivers i
          [{ t with
            place :=
              match place with
              | some at_ => .push at_ pushes
              | none => .handle pushes }] }
  | .store reason =>
      { s with
        rxRunning := false
        receivers := replaceAt s.receivers i [{ t with place := .loop (some reason) }] }
  | .resume => move (.done c.fail)
  | .done err =>
      { s with
        receivers := replaceAt s.receivers i []
        callers := s.callers + if err then 1 else 0 }

/-- The function that `onConnectionClose` runs once. -/
def close (s : Teardown) (c : TeardownChoice) : Teardown :=
  match s.closer with
  | .idle => s
  | .quit => { s with quit := true, closer := .stopPoll }
  | .stopPoll => { s with polled := false, closer := .shut }
  | .shut => { s with txRunning := 2, timer := false, closer := .txWait }
  | .txWait => if s.transmitters.isEmpty then { s with closer := .drain } else s
  | .drain =>
      if s.token then { s with token := false, closer := .offline }
      else { s with sealed := true, closer := .offline }
  | .offline => { s with online := false, closer := .lock }
  | .lock => { s with closer := .offlineWait }
  | .offlineWait => if s.pushers.isEmpty then { s with closer := .farewell } else s
  | .farewell => if c.block then s else { s with closer := .close }
  | .close => { s with Conn := .closed, closer := .rxWait }
  | .rxWait =>
      if s.receivers.isEmpty then { s with keepAliveTimer := false, closer := .clear } else s
  | .clear => { s with Conn := .gone, closer := .notify }
  | .notify => { s with disconnected := s.disconnected + 1, closer := .finished }
  | .finished => s

/-- `onConnDisconnect.Do`: the first call runs the function. -/
def call (s : Teardown) : Teardown :=
  match s.callers with
  | 0 => s
  | callers + 1 => { s with callers, closer := if s.closer = .idle then .quit else s.closer }

/-- `wgOnline.Add` in `Subscriber.Publish`, while `Subscriber.Offline` does not hold the lock. -/
def join (s : Teardown) : Teardown :=
  match s.joining with
  | 0 => s
  | joining + 1 =>
      if s.closer = .offlineWait then s
      else { s with joining, pushers := s.pushers ++ [.signal] }

/-- A goroutine takes a step. One that does not exist does nothing. -/
def go (s : Teardown) (c : TeardownChoice) : Goroutine → Teardown
  | .caller => s.call
  | .closer => s.close c
  | .joiner => s.join
  | .pusher i =>
      match s.pushers[i]? with
      | none => s
      | some place =>
          let (next, place) := s.push place
          { next with pushers := replaceAt s.pushers i place.toList }
  | .poller i =>
      match s.polls[i]? with
      | none => s
      | some (place, exit) => s.poll i exit place
  | .transmitter i =>
      match s.transmitters[i]? with
      | none => s
      | some t => s.transmit i c t
  | .receiver i =>
      match s.receivers[i]? with
      | none => s
      | some t => s.receive i c t

/-- What can happen next. -/
inductive Op where
  /-- `Subscriber.Publish` finds out whether the subscriber is online. -/
  | publish
  /-- `txTimer` fires. -/
  | tick
  /-- The netpoll calls `rxRun`. -/
  | poll (exit : Bool)
  /-- `keepAliveExpired` or `Stop` -/
  | stop
  /-- The client sends a packet. -/
  | arrive (pushes : ℕ)
  | go (g : Goroutine) (c : TeardownChoice)

/-- One step. A panic is the end of the whole process. -/
def step (s : Teardown) (op : Op) : Teardown :=
  if s.panicked then s
  else
    match op with
    | .publish => if s.online then { s with joining := s.joining + 1 } else s
    | .tick => if s.timer then { s with timer := false, tick := true } else s
    | .poll exit => if s.polled then { s with polls := s.polls ++ [(.run, exit)] } else s
    | .stop => { s with callers := s.callers + 1 }
    | .arrive pushes => { s with incoming := s.incoming ++ [pushes] }
    | .go g c => s.go c g

/-- What the closing goroutine alone changes is as far as that goroutine has come. -/
structure Ordered (s : Teardown) : Prop where
  quit : s.quit = true ↔ 2 ≤ s.closer.rank
  sealed : s.sealed = true → 6 ≤ s.closer.rank
  opened : s.Conn = .opened ↔ s.closer.rank ≤ 10
  timer : s.keepAlive = true → (s.keepAliveTimer = true ↔ s.closer.rank ≤ 11)
  gone : s.Conn = .gone ↔ 13 ≤ s.closer.rank
  disconnected : s.disconnected = if s.closer.rank = 14 then 1 else 0

/-- What only the closing goroutine changes is unchanged. -/
structure Aside (s next : Teardown) : Prop where
  quit : next.quit = s.quit
  sealed : next.sealed = s.sealed
  Conn : next.Conn = s.Conn
  keepAlive : next.keepAlive = s.keepAlive
  keepAliveTimer : next.keepAliveTimer = s.keepAliveTimer
  closer : next.closer = s.closer
  disconnected : next.disconnected = s.disconnected
  online : next.online = s.online
  polled : next.polled = s.polled

section Order

variable {s next : Teardown}

theorem Aside.trans {last : Teardown} (first : s.Aside next) (second : next.Aside last) :
    s.Aside last :=
  ⟨second.quit.trans first.quit, second.sealed.trans first.sealed, second.Conn.trans first.Conn,
    second.keepAlive.trans first.keepAlive, second.keepAliveTimer.trans first.keepAliveTimer,
    second.closer.trans first.closer, second.disconnected.trans first.disconnected,
    second.online.trans first.online, second.polled.trans first.polled⟩

theorem Ordered.aside (ordered : s.Ordered) (aside : s.Aside next) : next.Ordered := by
  refine ⟨?_, ?_, ?_, ?_, ?_, ?_⟩
  · rw [aside.quit, aside.closer]
    exact ordered.quit
  · rw [aside.sealed, aside.closer]
    exact ordered.sealed
  · rw [aside.Conn, aside.closer]
    exact ordered.opened
  · rw [aside.keepAlive, aside.keepAliveTimer, aside.closer]
    exact ordered.timer
  · rw [aside.Conn, aside.closer]
    exact ordered.gone
  · rw [aside.disconnected, aside.closer]
    exact ordered.disconnected

theorem aside_push (s : Teardown) (place : PushPlace) : s.Aside (s.push place).1 := by
  cases place with
  | send =>
      simp only [push]
      split <;> constructor <;> rfl
  | swap =>
      simp only [push]
      split <;> constructor <;> rfl
  | _ => constructor <;> rfl

theorem aside_poll (s : Teardown) (i : ℕ) (exit : Bool) (place : PollPlace) :
    s.Aside (s.poll i exit place) := by
  cases place with
  | swap =>
      simp only [poll]
      split <;> constructor <;> rfl
  | wait =>
      simp only [poll]
      split <;> constructor <;> rfl
  | _ => constructor <;> rfl

theorem aside_endCase (s : Teardown) (i : ℕ) (err more : Bool) (after : TxAfter) :
    s.Aside (s.endCase i err more after) := by
  cases after <;> constructor <;> rfl

theorem aside_select (s : Teardown) (i : ℕ) (err : Bool) (c : TeardownChoice) :
    s.Aside (s.select i err c) := by
  simp only [select]
  split
  · split <;> constructor <;> rfl
  · split
    · constructor <;> rfl
    · split <;> constructor <;> rfl

theorem aside_popPackets (s : Teardown) (i : ℕ) (err : Bool) (c : TeardownChoice) :
    s.Aside (s.popPackets i err c) := by
  simp only [popPackets]
  split
  · constructor <;> rfl
  · have aside := aside_endCase
      { s with txRunning := if s.quit && c.acquire then 0 else s.txRunning } i err false c.after
    exact ⟨aside.quit, aside.sealed, aside.Conn, aside.keepAlive, aside.keepAliveTimer,
      aside.closer, aside.disconnected, aside.online, aside.polled⟩

theorem aside_written (s : Teardown) (i : ℕ) (tick more : Bool) (c : TeardownChoice) :
    s.Aside (s.written i tick more c) := by
  simp only [written]
  split
  · split <;> constructor <;> rfl
  · split <;> constructor <;> rfl

theorem aside_transmit (s : Teardown) (i : ℕ) (c : TeardownChoice) (t : TxThread) :
    s.Aside (s.transmit i c t) := by
  rcases t with ⟨err, place⟩
  cases place with
  | select => exact aside_select s i err c
  | pop => exact aside_popPackets s i err c
  | signal after =>
      simp only [transmit]
      split
      · exact aside_endCase s i err true after
      · constructor <;> rfl
  | send after =>
      simp only [transmit]
      split
      · constructor <;> rfl
      · have aside := aside_endCase { s with token := true } i err true after
        exact ⟨aside.quit, aside.sealed, aside.Conn, aside.keepAlive, aside.keepAliveTimer,
          aside.closer, aside.disconnected, aside.online, aside.polled⟩
  | write tick more =>
      simp only [transmit]
      split
      · constructor <;> rfl
      · split
        · constructor <;> rfl
        · exact aside_written s i tick more c
  | store times => cases times <;> constructor <;> rfl
  | _ => constructor <;> rfl

theorem aside_receive (s : Teardown) (i : ℕ) (c : TeardownChoice) (t : RxThread) :
    s.Aside (s.receive i c t) := by
  rcases t with ⟨void, buffer, place⟩
  cases place with
  | loop err =>
      simp only [receive]
      split
      · split <;> constructor <;> rfl
      · constructor <;> rfl
  | read =>
      simp only [receive, readPacket]
      split
      · constructor <;> rfl
      · split
        · constructor <;> rfl
        · split <;> constructor <;> rfl
  | handle pushes => cases pushes <;> constructor <;> rfl
  | push at_ pushes =>
      refine (aside_push s at_).trans ?_
      constructor <;> rfl
  | _ => constructor <;> rfl

theorem ordered_close (ordered : s.Ordered) (c : TeardownChoice) : (s.close c).Ordered := by
  rcases ordered with ⟨quit, sealed, opened, timer, gone, disconnected⟩
  unfold close
  split
  all_goals rename_i place
  all_goals simp only [place, Closer.rank] at quit sealed opened timer gone disconnected
  all_goals try split
  all_goals refine ⟨?_, ?_, ?_, ?_, ?_, ?_⟩
  all_goals simp_all [Closer.rank]

theorem ordered_call (ordered : s.Ordered) : s.call.Ordered := by
  unfold call
  split
  · exact ordered
  · by_cases idle : s.closer = .idle
    · rcases ordered with ⟨quit, sealed, opened, timer, gone, disconnected⟩
      simp only [idle, Closer.rank] at quit sealed opened timer gone disconnected
      refine ⟨?_, ?_, ?_, ?_, ?_, ?_⟩
      all_goals simp_all [Closer.rank]
    · exact ordered.aside ⟨rfl, rfl, rfl, rfl, rfl, if_neg idle, rfl, rfl, rfl⟩

theorem aside_join (s : Teardown) : s.Aside s.join := by
  unfold join
  split
  · constructor <;> rfl
  · split <;> constructor <;> rfl

/-- Everybody but the closing goroutine leaves the end of the connection alone. -/
theorem aside_go (s : Teardown) (c : TeardownChoice) {g : Goroutine} (other : g ≠ .closer)
    (running : g ≠ .caller) : s.Aside (s.go c g) := by
  cases g with
  | caller => exact absurd rfl running
  | closer => exact absurd rfl other
  | joiner => exact aside_join s
  | pusher i =>
      simp only [go]
      split
      · constructor <;> rfl
      · rename_i place _
        refine (aside_push s place).trans ?_
        constructor <;> rfl
  | poller i =>
      simp only [go]
      split
      · constructor <;> rfl
      · exact aside_poll s i _ _
  | transmitter i =>
      simp only [go]
      split
      · constructor <;> rfl
      · exact aside_transmit s i c _
  | receiver i =>
      simp only [go]
      split
      · constructor <;> rfl
      · exact aside_receive s i c _

theorem ordered_start (keepAlive : Bool) : (start keepAlive).Ordered := by
  refine ⟨?_, ?_, ?_, ?_, ?_, ?_⟩ <;> simp [start, Closer.rank]

end Order

/-- The call is about to look at `quit`. -/
def Looking (place : PushPlace) : Prop := place = .signal ∨ place = .run

instance : DecidablePred Looking := fun _ => inferInstanceAs (Decidable (_ ∨ _))

/-- A push in the receiver is about to look at `quit`. -/
def Calm (t : RxThread) : Prop :=
  match t.place with
  | .push at_ _ => Looking at_
  | _ => True

instance : DecidablePred Calm := fun t =>
  match t with
  | ⟨_, _, .push at_ _⟩ => inferInstanceAs (Decidable (Looking at_))
  | ⟨_, _, .start⟩ | ⟨_, _, .loop _⟩ | ⟨_, _, .read⟩ | ⟨_, _, .handle _⟩ | ⟨_, _, .store _⟩
  | ⟨_, _, .resume⟩ | ⟨_, _, .done _⟩ => inferInstanceAs (Decidable True)

/-- Nobody has looked at `quit` and not yet done what it looked for. -/
structure Clear (s : Teardown) : Prop where
  pushers : ∀ place ∈ s.pushers, Looking place
  polls : ∀ poll ∈ s.polls, poll.1 = .run
  receivers : ∀ t ∈ s.receivers, Calm t

instance (s : Teardown) : Decidable s.Clear :=
  decidable_of_iff ((∀ place ∈ s.pushers, Looking place) ∧ (∀ poll ∈ s.polls, poll.1 = .run) ∧
      ∀ t ∈ s.receivers, Calm t)
    ⟨fun clear => ⟨clear.1, clear.2.1, clear.2.2⟩,
      fun clear => ⟨clear.pushers, clear.polls, clear.receivers⟩⟩

/-- At the moment at which `quit` is closed, nobody is between its look at `quit` and what it looked
for. -/
def Timely (s : Teardown) : Op → Prop
  | .go .closer _ => s.closer = .quit → s.Clear
  | _ => True

/-- What holds at all times if nobody comes too late. -/
structure Quiet (s : Teardown) : Prop where
  ordered : s.Ordered
  safe : s.panicked = false
  clear : s.quit = true → s.Clear
  halted : 4 ≤ s.closer.rank → s.txRunning ≠ 1
  transmitted : 5 ≤ s.closer.rank → s.transmitters = []
  solid : ∀ t ∈ s.receivers, t.void = false
  received : 12 ≤ s.closer.rank → s.receivers = []

section Quiet

variable {s next : Teardown} {i : ℕ}

/-- A push changes neither the other calls nor the receivers. -/
theorem push_keeps (s : Teardown) (place : PushPlace) :
    (s.push place).1.pushers = s.pushers ∧ (s.push place).1.polls = s.polls ∧
      (s.push place).1.receivers = s.receivers := by
  cases place with
  | send =>
      simp only [push]
      split <;> exact ⟨rfl, rfl, rfl⟩
  | swap =>
      simp only [push]
      split <;> exact ⟨rfl, rfl, rfl⟩
  | _ => exact ⟨rfl, rfl, rfl⟩

/-- After `quit` is closed, a push that looks at it does nothing more. -/
theorem push_of_quit {place : PushPlace} (quit : s.quit = true) (looking : Looking place) :
    (s.push place).1 = s ∧ ∀ after ∈ (s.push place).2, Looking after := by
  rcases looking with rfl | rfl
  · simp [push, quit, Looking]
  · simp [push, quit]

/-- While `txAvailable` is not closed, a push does not panic. -/
theorem push_safe (opened : s.sealed = false) (place : PushPlace) :
    (s.push place).1.panicked = s.panicked := by
  cases place with
  | send => simp [push, opened]
  | swap =>
      simp only [push]
      split <;> rfl
  | _ => rfl

theorem Ordered.not_sealed (ordered : s.Ordered) (early : s.closer.rank < 6) :
    s.sealed = false := by
  cases closed : s.sealed with
  | false => rfl
  | true =>
      have late := ordered.sealed closed
      omega

theorem Ordered.there (ordered : s.Ordered) (early : s.closer.rank < 13) : s.Conn ≠ .gone := by
  intro gone
  have late := ordered.gone.mp gone
  omega

/-- A receiver finds the keep-alive timer if there is an interval. -/
theorem Ordered.timed (ordered : s.Ordered) (early : s.closer.rank < 12) :
    ¬(s.keepAlive && !s.keepAliveTimer) = true := by
  intro missing
  simp only [Bool.and_eq_true, Bool.not_eq_true'] at missing
  have set := (ordered.timer missing.1).mpr (by omega)
  simp [set] at missing

theorem Ordered.early (ordered : s.Ordered) (running : s.quit = false) : s.closer.rank < 2 := by
  by_contra late
  have closed := ordered.quit.mpr (by omega)
  simp [closed] at running

/-- A step of anybody but the closing goroutine. -/
theorem Quiet.aside (quiet : s.Quiet) (aside : s.Aside next) (safe : next.panicked = false)
    (clear : s.quit = true → s.Clear → next.Clear)
    (halted : 4 ≤ s.closer.rank → s.txRunning ≠ 1 → next.txRunning ≠ 1)
    (transmitted : 5 ≤ s.closer.rank → s.transmitters = [] → next.transmitters = [])
    (solid : ∀ t ∈ next.receivers, t.void = false)
    (received : 12 ≤ s.closer.rank → s.receivers = [] → next.receivers = []) : next.Quiet := by
  have closer := aside.closer
  refine ⟨quiet.ordered.aside aside, safe, ?_, ?_, ?_, solid, ?_⟩
  · intro quit
    rw [aside.quit] at quit
    exact clear quit (quiet.clear quit)
  · intro late
    rw [closer] at late
    exact halted late (quiet.halted late)
  · intro late
    rw [closer] at late
    exact transmitted late (quiet.transmitted late)
  · intro late
    rw [closer] at late
    exact received late (quiet.received late)

/-- A step that concerns none of the goroutines that use the connection. -/
theorem Quiet.elsewhere (quiet : s.Quiet) (aside : s.Aside next)
    (panicked : next.panicked = s.panicked) (txRunning : next.txRunning = s.txRunning)
    (pushers : next.pushers = s.pushers) (polls : next.polls = s.polls)
    (transmitters : next.transmitters = s.transmitters) (receivers : next.receivers = s.receivers) :
    next.Quiet := by
  refine quiet.aside aside (panicked.trans quiet.safe) ?_ ?_ ?_ ?_ ?_
  · intro _ clear
    refine ⟨?_, ?_, ?_⟩
    · rw [pushers]
      exact clear.pushers
    · rw [polls]
      exact clear.polls
    · rw [receivers]
      exact clear.receivers
  · intro _ halted
    rw [txRunning]
    exact halted
  · intro _ none
    exact transmitters.trans none
  · rw [receivers]
    exact quiet.solid
  · intro _ none
    exact receivers.trans none

/-- Before `quit` is closed, hardly anything can go wrong. -/
theorem Quiet.before (quiet : s.Quiet) (running : s.quit = false) (aside : s.Aside next)
    (safe : next.panicked = false) (solid : ∀ t ∈ next.receivers, t.void = false) :
    next.Quiet := by
  have early := quiet.ordered.early running
  have rank : next.closer.rank < 2 := by
    rw [aside.closer]
    exact early
  refine ⟨quiet.ordered.aside aside, safe, ?_, ?_, ?_, solid, ?_⟩
  · intro quit
    simp [aside.quit, running] at quit
  all_goals
    intro late
    omega

theorem quiet_join (quiet : s.Quiet) : s.join.Quiet := by
  have aside := aside_join s
  unfold join at aside ⊢
  split
  · exact quiet
  · split
    · exact quiet
    · refine quiet.aside (by constructor <;> rfl) quiet.safe ?_ (fun _ halted => halted)
        (fun _ none => none) quiet.solid (fun _ none => none)
      intro _ clear
      refine ⟨?_, clear.polls, clear.receivers⟩
      intro place member
      rcases List.mem_append.mp member with old | new
      · exact clear.pushers place old
      · exact .inl (List.mem_singleton.mp new)

theorem quiet_pusher (quiet : s.Quiet) {place : PushPlace} (here : s.pushers[i]? = some place) :
    Quiet { (s.push place).1 with
      pushers := replaceAt s.pushers i (s.push place).2.toList } := by
  cases quit : s.quit with
  | false =>
      refine quiet.before quit ?_ ?_ ?_
      · refine (aside_push s place).trans ?_
        constructor <;> rfl
      · have early := quiet.ordered.early quit
        have opened := quiet.ordered.not_sealed (by omega)
        exact (push_safe opened place).trans quiet.safe
      · intro t member
        rw [(push_keeps s place).2.2] at member
        exact quiet.solid t member
  | true =>
      rcases push_of_quit quit ((quiet.clear quit).pushers place (List.mem_of_getElem? here)) with
        ⟨same, looking⟩
      rw [same]
      refine quiet.aside (by constructor <;> rfl) quiet.safe ?_ (fun _ halted => halted)
        (fun _ none => none) quiet.solid (fun _ none => none)
      intro _ clear
      refine ⟨?_, clear.polls, clear.receivers⟩
      intro other member
      rcases mem_replaceAt member with new | old
      · exact looking other (Option.mem_toList.mp new)
      · exact clear.pushers other old

theorem quiet_poller (quiet : s.Quiet) {place : PollPlace} {exit : Bool}
    (here : s.polls[i]? = some (place, exit)) : (s.poll i exit place).Quiet := by
  have aside := aside_poll s i exit place
  cases quit : s.quit with
  | false =>
      refine quiet.before quit aside ?_ ?_
      · cases place with
        | swap =>
            simp only [poll]
            split <;> exact quiet.safe
        | wait =>
            simp only [poll]
            split <;> exact quiet.safe
        | _ => exact quiet.safe
      · cases place with
        | run => exact quiet.solid
        | swap =>
            simp only [poll]
            split <;> exact quiet.solid
        | wait =>
            simp only [poll]
            split <;> exact quiet.solid
        | go =>
            intro t member
            rcases List.mem_append.mp member with old | new
            · exact quiet.solid t old
            · rw [List.mem_singleton.mp new]
  | true =>
      have run : place = .run := (quiet.clear quit).polls _ (List.mem_of_getElem? here)
      subst run
      simp only [poll, if_pos quit]
      refine quiet.aside (by constructor <;> rfl) quiet.safe ?_ (fun _ halted => halted)
        (fun _ none => none) quiet.solid (fun _ none => none)
      intro _ clear
      refine ⟨clear.pushers, ?_, clear.receivers⟩
      intro other member
      rcases mem_replaceAt member with new | old
      · simp at new
      · exact clear.polls other old

/-- What a transmitter leaves alone. -/
structure Apart (s next : Teardown) : Prop where
  joining : next.joining = s.joining
  pushers : next.pushers = s.pushers
  polls : next.polls = s.polls
  receivers : next.receivers = s.receivers
  panicked : next.panicked = s.panicked
  txRunning : next.txRunning = s.txRunning ∨ next.txRunning = 0

theorem apart_endCase (s : Teardown) (i : ℕ) (err more : Bool) (after : TxAfter) :
    s.Apart (s.endCase i err more after) := by
  cases after <;> exact ⟨rfl, rfl, rfl, rfl, rfl, .inl rfl⟩

theorem apart_select (s : Teardown) (i : ℕ) (err : Bool) (c : TeardownChoice) :
    s.Apart (s.select i err c) := by
  simp only [select]
  split
  · split <;> exact ⟨rfl, rfl, rfl, rfl, rfl, .inl rfl⟩
  · split
    · exact ⟨rfl, rfl, rfl, rfl, rfl, .inl rfl⟩
    · split <;> exact ⟨rfl, rfl, rfl, rfl, rfl, .inl rfl⟩

theorem apart_popPackets (s : Teardown) (i : ℕ) (err : Bool) (c : TeardownChoice) :
    s.Apart (s.popPackets i err c) := by
  have cleared : (if s.quit && c.acquire then 0 else s.txRunning) = s.txRunning ∨
      (if s.quit && c.acquire then 0 else s.txRunning) = 0 := by
    split
    · exact .inr rfl
    · exact .inl rfl
  simp only [popPackets]
  split
  · exact ⟨rfl, rfl, rfl, rfl, rfl, cleared⟩
  · cases c.after <;> exact ⟨rfl, rfl, rfl, rfl, rfl, cleared⟩

theorem apart_written (s : Teardown) (i : ℕ) (tick more : Bool) (c : TeardownChoice) :
    s.Apart (s.written i tick more c) := by
  simp only [written]
  split
  · split <;> exact ⟨rfl, rfl, rfl, rfl, rfl, .inl rfl⟩
  · split <;> exact ⟨rfl, rfl, rfl, rfl, rfl, .inl rfl⟩

/-- A transmitter touches nobody else, and does not panic while the channel and the socket are
there. -/
theorem apart_transmit (opened : s.sealed = false) (there : s.Conn ≠ .gone) (i : ℕ)
    (c : TeardownChoice) (t : TxThread) : s.Apart (s.transmit i c t) := by
  rcases t with ⟨err, place⟩
  cases place with
  | loop => exact ⟨rfl, rfl, rfl, rfl, rfl, .inl rfl⟩
  | select => exact apart_select s i err c
  | pop => exact apart_popPackets s i err c
  | signal after =>
      simp only [transmit]
      split
      · exact apart_endCase s i err true after
      · exact ⟨rfl, rfl, rfl, rfl, rfl, .inl rfl⟩
  | send after =>
      have unsealed : ¬s.sealed = true := by simp [opened]
      simp only [transmit, if_neg unsealed]
      cases after <;> exact ⟨rfl, rfl, rfl, rfl, rfl, .inl rfl⟩
  | write tick more =>
      simp only [transmit, if_neg there]
      split
      · exact ⟨rfl, rfl, rfl, rfl, rfl, .inl rfl⟩
      · exact apart_written s i tick more c
  | store times =>
      cases times with
      | zero => exact ⟨rfl, rfl, rfl, rfl, rfl, .inl rfl⟩
      | succ times => exact ⟨rfl, rfl, rfl, rfl, rfl, .inr rfl⟩
  | exit => exact ⟨rfl, rfl, rfl, rfl, rfl, .inr rfl⟩
  | done => exact ⟨rfl, rfl, rfl, rfl, rfl, .inl rfl⟩

theorem Quiet.transmitting (quiet : s.Quiet) {t : TxThread} (here : s.transmitters[i]? = some t) :
    s.closer.rank < 5 := by
  by_contra late
  have none := quiet.transmitted (by omega)
  simp [none] at here

theorem Quiet.apart (quiet : s.Quiet) {t : TxThread} (here : s.transmitters[i]? = some t)
    (c : TeardownChoice) : s.Apart (s.transmit i c t) := by
  have early := quiet.transmitting here
  have opened := quiet.ordered.not_sealed (by omega)
  have there := quiet.ordered.there (by omega)
  exact apart_transmit opened there i c t

theorem quiet_transmitter (quiet : s.Quiet) {t : TxThread} (here : s.transmitters[i]? = some t)
    (c : TeardownChoice) : (s.transmit i c t).Quiet := by
  have early := quiet.transmitting here
  have apart := quiet.apart here c
  refine quiet.aside (aside_transmit s i c t) (apart.panicked.trans quiet.safe) ?_ ?_ ?_ ?_ ?_
  · intro _ clear
    refine ⟨?_, ?_, ?_⟩
    · rw [apart.pushers]
      exact clear.pushers
    · rw [apart.polls]
      exact clear.polls
    · rw [apart.receivers]
      exact clear.receivers
  · intro _ halted
    rcases apart.txRunning with same | zero
    · rw [same]
      exact halted
    · simp [zero]
  · intro late
    omega
  · rw [apart.receivers]
    exact quiet.solid
  · intro _ none
    rw [apart.receivers]
    exact none

/-- A receiver moves on its own. -/
theorem quiet_moved (quiet : s.Quiet) {old : RxThread} (here : s.receivers[i]? = some old)
    (threads : List RxThread) (calm : ∀ t ∈ threads, Calm t ∧ t.void = false)
    (aside : s.Aside next) (pushers : next.pushers = s.pushers) (polls : next.polls = s.polls)
    (transmitters : next.transmitters = s.transmitters) (txRunning : next.txRunning = s.txRunning)
    (panicked : next.panicked = s.panicked)
    (receivers : next.receivers = replaceAt s.receivers i threads) : next.Quiet := by
  refine quiet.aside aside (panicked.trans quiet.safe) ?_ ?_ ?_ ?_ ?_
  · intro _ clear
    refine ⟨?_, ?_, ?_⟩
    · rw [pushers]
      exact clear.pushers
    · rw [polls]
      exact clear.polls
    · intro other member
      rw [receivers] at member
      rcases mem_replaceAt member with new | old
      · exact (calm other new).1
      · exact clear.receivers other old
  · intro _ halted
    rw [txRunning]
    exact halted
  · intro _ none
    rw [transmitters]
    exact none
  · intro other member
    rw [receivers] at member
    rcases mem_replaceAt member with new | old
    · exact (calm other new).2
    · exact quiet.solid other old
  · intro _ none
    simp [none] at here

theorem Quiet.receiving (quiet : s.Quiet) {t : RxThread} (here : s.receivers[i]? = some t) :
    s.closer.rank < 12 := by
  by_contra late
  have none := quiet.received (by omega)
  simp [none] at here

/-- A receiver moves to another place. -/
theorem quiet_goes (quiet : s.Quiet) {t : RxThread} (here : s.receivers[i]? = some t)
    {buffer : List ℕ} {place : RxPlace} (calm : Calm ⟨t.void, buffer, place⟩) :
    Quiet { s with receivers := replaceAt s.receivers i [⟨t.void, buffer, place⟩] } := by
  refine quiet_moved quiet here _ ?_ (by constructor <;> rfl) rfl rfl rfl rfl rfl rfl
  intro other member
  rw [List.mem_singleton.mp member]
  exact ⟨calm, quiet.solid t (List.mem_of_getElem? here)⟩

theorem quiet_read (quiet : s.Quiet) {t : RxThread} (here : s.receivers[i]? = some t)
    (reading : t.place = .read) (c : TeardownChoice) : (s.readPacket i c t).Quiet := by
  have solid := quiet.solid t (List.mem_of_getElem? here)
  simp only [readPacket]
  split
  · refine quiet_goes quiet here ?_
    unfold Calm
    cases c.fail <;> trivial
  · rw [if_neg (by simp [solid])]
    split
    · exact quiet_goes quiet here trivial
    · refine quiet_moved quiet here _ ?_ (by constructor <;> rfl) rfl rfl rfl rfl rfl rfl
      intro other member
      rw [List.mem_singleton.mp member]
      simp [Calm, reading, solid]

theorem quiet_push (quiet : s.Quiet) {t : RxThread} {at_ : PushPlace} {pushes : ℕ}
    (here : s.receivers[i]? = some t) (pushing : t.place = .push at_ pushes)
    (c : TeardownChoice) : (s.receive i c t).Quiet := by
  have aside := aside_receive s i c t
  have solid := quiet.solid t (List.mem_of_getElem? here)
  rcases push_keeps s at_ with ⟨pushers, polls, receivers⟩
  cases quit : s.quit with
  | false =>
      refine quiet.before quit aside ?_ ?_
      · have early := quiet.ordered.early quit
        have opened := quiet.ordered.not_sealed (by omega)
        simp only [receive, pushing]
        exact (push_safe opened at_).trans quiet.safe
      · intro other member
        simp only [receive, pushing] at member
        rcases mem_replaceAt member with new | old
        · rw [List.mem_singleton.mp new]
          exact solid
        · exact quiet.solid other old
  | true =>
      have looking : Looking at_ := by
        have calm := (quiet.clear quit).receivers t (List.mem_of_getElem? here)
        simpa [Calm, pushing] using calm
      rcases push_of_quit quit looking with ⟨same, after⟩
      simp only [receive, pushing, same]
      refine quiet_goes quiet here ?_
      unfold Calm
      cases returned : (s.push at_).2 with
      | none => trivial
      | some next => exact after next returned

theorem quiet_receiver (quiet : s.Quiet) {t : RxThread} (here : s.receivers[i]? = some t)
    (c : TeardownChoice) : (s.receive i c t).Quiet := by
  have early := quiet.receiving here
  have there := quiet.ordered.there (by omega)
  cases place : t.place with
  | start =>
      simp only [receive, place]
      refine quiet_moved quiet here _ ?_ (by constructor <;> rfl) rfl rfl rfl rfl rfl rfl
      intro other member
      rw [List.mem_singleton.mp member]
      simp [Calm, there]
  | loop err =>
      simp only [receive, place, if_neg (quiet.ordered.timed early)]
      split
      · exact quiet_goes quiet here trivial
      · refine quiet_goes quiet here ?_
        unfold Calm
        split
        · rename_i met
          split at met <;> cases met
        · trivial
  | read =>
      simp only [receive, place]
      exact quiet_read quiet here place c
  | handle pushes =>
      cases pushes with
      | zero =>
          simp only [receive, place]
          refine quiet_goes quiet here ?_
          unfold Calm
          cases c.fail <;> trivial
      | succ pushes =>
          simp only [receive, place]
          exact quiet_goes quiet here (.inl rfl)
  | push at_ pushes => exact quiet_push quiet here place c
  | store reason =>
      simp only [receive, place]
      refine quiet_moved quiet here _ ?_ (by constructor <;> rfl) rfl rfl rfl rfl rfl rfl
      intro other member
      rw [List.mem_singleton.mp member]
      exact ⟨trivial, quiet.solid t (List.mem_of_getElem? here)⟩
  | resume =>
      simp only [receive, place]
      exact quiet_goes quiet here trivial
  | done err =>
      simp only [receive, place]
      exact quiet_moved quiet here [] (by simp) (by constructor <;> rfl) rfl rfl rfl rfl rfl rfl

/-- The closing goroutine leaves the lists of the others alone. -/
theorem Quiet.closes (quiet : s.Quiet) (ordered : next.Ordered)
    (panicked : next.panicked = s.panicked) (pushers : next.pushers = s.pushers)
    (polls : next.polls = s.polls) (transmitters : next.transmitters = s.transmitters)
    (receivers : next.receivers = s.receivers) (clear : next.quit = true → s.Clear)
    (halted : 4 ≤ next.closer.rank → next.txRunning ≠ 1)
    (transmitted : 5 ≤ next.closer.rank → s.transmitters = [])
    (received : 12 ≤ next.closer.rank → s.receivers = []) : next.Quiet := by
  refine ⟨ordered, panicked.trans quiet.safe, ?_, halted, ?_, ?_, ?_⟩
  · intro quit
    have before := clear quit
    refine ⟨?_, ?_, ?_⟩
    · rw [pushers]
      exact before.pushers
    · rw [polls]
      exact before.polls
    · rw [receivers]
      exact before.receivers
  · intro late
    exact transmitters.trans (transmitted late)
  · rw [receivers]
    exact quiet.solid
  · intro late
    exact receivers.trans (received late)

/-- The closing goroutine goes one step further. -/
theorem Quiet.advances (quiet : s.Quiet) (ordered : next.Ordered)
    (panicked : next.panicked = s.panicked) (pushers : next.pushers = s.pushers)
    (polls : next.polls = s.polls) (transmitters : next.transmitters = s.transmitters)
    (receivers : next.receivers = s.receivers) (txRunning : next.txRunning = s.txRunning)
    (late : 4 ≤ s.closer.rank)
    (transmitted : s.closer.rank < 5 → s.transmitters = [])
    (received : s.closer.rank < 12 → 12 ≤ next.closer.rank → s.receivers = []) : next.Quiet := by
  refine quiet.closes ordered panicked pushers polls transmitters receivers ?_ ?_ ?_ ?_
  · intro _
    exact quiet.clear (quiet.ordered.quit.mpr (by omega))
  · intro _
    rw [txRunning]
    exact quiet.halted late
  · intro _
    by_cases waited : s.closer.rank < 5
    · exact transmitted waited
    · exact quiet.transmitted (by omega)
  · intro past
    by_cases waited : s.closer.rank < 12
    · exact received waited past
    · exact quiet.received (by omega)

theorem quiet_close (quiet : s.Quiet) (c : TeardownChoice) (timely : s.closer = .quit → s.Clear) :
    (s.close c).Quiet := by
  have ordered := ordered_close quiet.ordered c
  cases place : s.closer with
  | idle =>
      simp only [close, place]
      exact quiet
  | quit =>
      simp only [close, place] at ordered ⊢
      exact quiet.closes ordered rfl rfl rfl rfl rfl (fun _ => timely place) (by simp [Closer.rank])
        (by simp [Closer.rank]) (by simp [Closer.rank])
  | stopPoll =>
      have quit := quiet.ordered.quit.mpr (by simp [place, Closer.rank])
      simp only [close, place] at ordered ⊢
      exact quiet.closes ordered rfl rfl rfl rfl rfl (fun _ => quiet.clear quit)
        (by simp [Closer.rank]) (by simp [Closer.rank]) (by simp [Closer.rank])
  | shut =>
      have quit := quiet.ordered.quit.mpr (by simp [place, Closer.rank])
      simp only [close, place] at ordered ⊢
      exact quiet.closes ordered rfl rfl rfl rfl rfl (fun _ => quiet.clear quit) (by simp)
        (by simp [Closer.rank]) (by simp [Closer.rank])
  | txWait =>
      simp only [close, place] at ordered ⊢
      by_cases gone : s.transmitters.isEmpty = true
      · rw [if_pos gone] at ordered ⊢
        exact quiet.advances ordered rfl rfl rfl rfl rfl rfl (by simp [place, Closer.rank])
          (fun _ => List.isEmpty_iff.mp gone) (by simp [Closer.rank])
      · rw [if_neg gone]
        exact quiet
  | drain =>
      simp only [close, place] at ordered ⊢
      by_cases full : s.token = true
      · rw [if_pos full] at ordered ⊢
        exact quiet.advances ordered rfl rfl rfl rfl rfl rfl (by simp [place, Closer.rank])
          (by simp [place, Closer.rank]) (by simp [Closer.rank])
      · rw [if_neg full] at ordered ⊢
        exact quiet.advances ordered rfl rfl rfl rfl rfl rfl (by simp [place, Closer.rank])
          (by simp [place, Closer.rank]) (by simp [Closer.rank])
  | offlineWait =>
      simp only [close, place] at ordered ⊢
      by_cases gone : s.pushers.isEmpty = true
      · rw [if_pos gone] at ordered ⊢
        exact quiet.advances ordered rfl rfl rfl rfl rfl rfl (by simp [place, Closer.rank])
          (by simp [place, Closer.rank]) (by simp [Closer.rank])
      · rw [if_neg gone]
        exact quiet
  | farewell =>
      simp only [close, place] at ordered ⊢
      by_cases block : c.block = true
      · rw [if_pos block]
        exact quiet
      · rw [if_neg block] at ordered ⊢
        exact quiet.advances ordered rfl rfl rfl rfl rfl rfl (by simp [place, Closer.rank])
          (by simp [place, Closer.rank]) (by simp [Closer.rank])
  | rxWait =>
      simp only [close, place] at ordered ⊢
      by_cases gone : s.receivers.isEmpty = true
      · rw [if_pos gone] at ordered ⊢
        exact quiet.advances ordered rfl rfl rfl rfl rfl rfl (by simp [place, Closer.rank])
          (by simp [place, Closer.rank]) (fun _ _ => List.isEmpty_iff.mp gone)
      · rw [if_neg gone]
        exact quiet
  | finished =>
      simp only [close, place]
      exact quiet
  | _ =>
      simp only [close, place] at ordered ⊢
      exact quiet.advances ordered rfl rfl rfl rfl rfl rfl (by simp [place, Closer.rank])
        (by simp [place, Closer.rank]) (by simp [place, Closer.rank])

theorem quiet_call (quiet : s.Quiet) : s.call.Quiet := by
  have ordered := ordered_call quiet.ordered
  unfold call at ordered ⊢
  split at ordered
  · exact quiet
  · by_cases idle : s.closer = .idle
    · simp only [if_pos idle] at ordered ⊢
      refine quiet.closes ordered rfl rfl rfl rfl rfl ?_ (by simp [Closer.rank])
        (by simp [Closer.rank]) (by simp [Closer.rank])
      intro quit
      exact quiet.clear quit
    · simp only [if_neg idle]
      exact quiet.elsewhere (by constructor <;> rfl) rfl rfl rfl rfl rfl rfl

theorem quiet_go (quiet : s.Quiet) (c : TeardownChoice) (g : Goroutine)
    (timely : s.Timely (.go g c)) : (s.go c g).Quiet := by
  cases g with
  | caller => exact quiet_call quiet
  | closer => exact quiet_close quiet c timely
  | joiner => exact quiet_join quiet
  | pusher i =>
      simp only [go]
      split
      · exact quiet
      · rename_i here
        exact quiet_pusher quiet here
  | poller i =>
      simp only [go]
      split
      · exact quiet
      · rename_i here
        exact quiet_poller quiet here
  | transmitter i =>
      simp only [go]
      split
      · exact quiet
      · rename_i here
        exact quiet_transmitter quiet here c
  | receiver i =>
      simp only [go]
      split
      · exact quiet
      · rename_i here
        exact quiet_receiver quiet here c

/-- What the surroundings do concerns no goroutine but those that start. -/
theorem quiet_step (quiet : s.Quiet) (op : Op) (timely : s.Timely op) : (s.step op).Quiet := by
  have running : ¬s.panicked = true := by simp [quiet.safe]
  simp only [step, if_neg running]
  cases op with
  | publish =>
      simp only
      split
      · exact quiet.elsewhere (by constructor <;> rfl) rfl rfl rfl rfl rfl rfl
      · exact quiet
  | tick =>
      simp only
      split
      · exact quiet.elsewhere (by constructor <;> rfl) rfl rfl rfl rfl rfl rfl
      · exact quiet
  | poll exit =>
      simp only
      split
      · refine quiet.aside (by constructor <;> rfl) quiet.safe ?_ (fun _ halted => halted)
          (fun _ none => none) quiet.solid (fun _ none => none)
        intro _ clear
        refine ⟨clear.pushers, ?_, clear.receivers⟩
        intro poll member
        rcases List.mem_append.mp member with old | new
        · exact clear.polls poll old
        · rw [List.mem_singleton.mp new]
      · exact quiet
  | stop => exact quiet.elsewhere (by constructor <;> rfl) rfl rfl rfl rfl rfl rfl
  | arrive pushes => exact quiet.elsewhere (by constructor <;> rfl) rfl rfl rfl rfl rfl rfl
  | go g c => exact quiet_go quiet c g timely

theorem quiet_start (keepAlive : Bool) : (start keepAlive).Quiet := by
  refine ⟨ordered_start keepAlive, rfl, ?_, ?_, ?_, ?_, ?_⟩ <;> simp [start, Closer.rank]

theorem quiet_run {keepAlive : Bool} {ops : List Op}
    (timely : Along step Timely (start keepAlive) ops) : (ops.foldl step (start keepAlive)).Quiet :=
  timely.invariant Quiet (fun _ op quiet fine => quiet_step quiet op fine) (quiet_start keepAlive)

end Quiet

/-- If nobody comes too late, nothing panics, `OnDisconnect` is called once at most, the socket is
closed after the last write and `Conn` cleared after the last read, and what is still running at the
end of the connection only looks at `quit` and returns. -/
theorem closes_in_order (keepAlive : Bool) (ops : List Op)
    (timely : Along step Timely (start keepAlive) ops) :
    let s := ops.foldl step (start keepAlive)
    s.panicked = false ∧ s.disconnected ≤ 1 ∧ (s.Conn ≠ .opened → s.transmitters = []) ∧
      (s.Conn = .gone → s.receivers = []) ∧ (s.disconnected = 1 → s.Conn = .gone ∧ s.Clear) := by
  intro s
  have quiet : s.Quiet := quiet_run timely
  have ordered := quiet.ordered
  have counted := ordered.disconnected
  refine ⟨quiet.safe, ?_, ?_, ?_, ?_⟩
  · split at counted <;> omega
  · intro closed
    apply quiet.transmitted
    by_contra early
    exact closed (ordered.opened.mpr (by omega))
  · intro gone
    apply quiet.received
    have late := ordered.gone.mp gone
    omega
  · intro once
    have last : s.closer.rank = 14 := by
      by_contra other
      rw [if_neg other] at counted
      omega
    exact ⟨ordered.gone.mpr (by omega), quiet.clear (ordered.quit.mpr (by omega))⟩

/-- Nothing fails and nothing blocks. -/
def sampleChoice : TeardownChoice :=
  { pick := .available
    after := .reset
    more := false
    empty := false
    acquire := false
    block := false
    fail := false
    reason := false
    ahead := 0 }

/-- The server closes a connection whose receiver is waiting for the client. -/
def sampleClose : List Op :=
  let go (g : Goroutine) : Op := .go g sampleChoice
  [.poll false] ++ List.replicate 4 (go (.poller 0)) ++ List.replicate 2 (go (.receiver 0)) ++
    [.stop, go .caller] ++ List.replicate 3 (go .closer) ++
    List.replicate 2 (go (.transmitter 0)) ++ List.replicate 7 (go .closer) ++
    List.replicate 5 (go (.receiver 0)) ++ List.replicate 3 (go .closer)

-- a message that comes too late: its sender has looked at `quit` before it was closed
example :
    let go (g : Goroutine) : Op := .go g sampleChoice
    let late := [.publish, go .joiner, go (.pusher 0)] ++ List.replicate 3 (go (.transmitter 0)) ++
      [.stop, go .caller] ++ List.replicate 3 (go .closer) ++
      List.replicate 2 (go (.transmitter 0)) ++ List.replicate 2 (go .closer) ++ [go (.pusher 0)]
    (late.foldl step (start false)).panicked = true := by
  decide

theorem closes_in_order_sampleClose :
    Along step Timely (start true) sampleClose ∧
      (sampleClose.foldl step (start true)).disconnected = 1 ∧
      (sampleClose.foldl step (start true)).Conn = .gone := by
  have timely : Along step Timely (start true) sampleClose := by
    refine ⟨?_, ?_, ?_, ?_, ?_, ?_, ?_, ?_, ?_, ?_, ?_, ?_, ?_, ?_, ?_, ?_, ?_, ?_, ?_, ?_, ?_, ?_,
      ?_, ?_, ?_, ?_, ?_, ?_, ?_, trivial⟩
    all_goals first
      | exact trivial
      | exact fun _ => by decide
  have once : (sampleClose.foldl step (start true)).disconnected = 1 := by decide
  exact ⟨timely, once, ((closes_in_order true sampleClose timely).2.2.2.2 once).1⟩

end Teardown

end VolantMQ.Connection
