import VolantMQ.Connection.Inbound
import VolantMQ.Packet.Message
import VolantMQ.Lib.Run

/-!
# The end of a connection

A connection can be closed by its receiver, by its transmitter, by its keep-alive timer and by the
server. Each of them calls `onConnectionClose` with its own idea of whether the will is to be
published, and the first call decides. This file has the receiver as a state machine whose steps
interleave with the other calls: the netpoll callback, a frame, a failed read, and the rest.

The receiver closes the connection only for errors of the type `packet.ReasonCode`. After any other
error, which includes the one that stands for a DISCONNECT packet, it asks the netpoll to call it
again.
-/

namespace VolantMQ.Connection

open Lib Packet

/-- An error of the receiver by its dynamic type. -/
inductive RxError where
  | reason (code : ReasonCode)
  | other
  deriving DecidableEq, Repr

/-- An error of `Decode` or of a handler. -/
def RxError.of : PacketError → RxError
  | .reason code => .reason code
  | _ => .other

theorem RxError.of_ne_other {e : PacketError} :
    RxError.of e ≠ .other ↔ ∃ code, e = .reason code := by
  cases e <;> simp [RxError.of]

/-- The arguments of `onConnectionClose`; its error is `nil` or a reason code. -/
structure Closing where
  will : Bool
  err : Option ReasonCode
  deriving DecidableEq, Repr

/-- `connection.DisconnectParams` without the netpoll descriptor -/
structure DisconnectParams where
  Will : Bool
  ExpireAt : Option UInt32
  Reason : ReasonCode
  deriving DecidableEq, Repr

/-- The parts of `connection.Type` that decide how a connection ends. -/
structure Lifecycle where
  inbound : Inbound Unit
  KeepAlive : UInt16
  ExpireIn : Option UInt32
  will : Bool
  rxRunning : Bool
  /-- A goroutine is in the loop of `rxRoutine`. -/
  receiving : Bool
  /-- The first call of `onConnectionClose`; from then on `quit` is closed. -/
  closing : Option Closing
  /-- What `OnDisconnect` was given. -/
  params : Option DisconnectParams
  /-- What `Decode` made of the frames that were read, in order. The packets among them were given
  to `processIncoming`. -/
  frames : List (Except PacketError Packet.Message)
  /-- `rxRoutine` has called `onConnectionClose`. -/
  reported : Bool

namespace Lifecycle

/-- A connection that `New` has created. -/
def new (inbound : Inbound Unit) (KeepAlive : UInt16) (ExpireIn : Option UInt32) : Lifecycle :=
  { inbound, KeepAlive, ExpireIn
    will := true
    rxRunning := false
    receiving := false
    closing := none
    params := none
    frames := []
    reported := false }

/-- `onConnectionClose` up to the point where it waits for the receiver. -/
def onConnectionClose (s : Lifecycle) (will : Bool) (err : Option ReasonCode) : Lifecycle :=
  match s.closing with
  | some _ => s
  | none => { s with closing := some ⟨will, err⟩ }

/-- The rest of `onConnectionClose`. By then `err` is the error of closing the socket, which is no
reason code. -/
def onDisconnect (s : Lifecycle) : Lifecycle :=
  match s.closing, s.params with
  | some call, none =>
      if s.receiving then s
      else { s with params := some ⟨call.will, s.ExpireIn, CodeSuccess⟩ }
  | _, _ => s

/-- The deferred function of `rxRoutine` -/
def rxDone (s : Lifecycle) (err : Option RxError) : Lifecycle :=
  match err with
  | none => s
  | some (.reason code) => { s.onConnectionClose s.will (some code) with reported := true }
  | some .other => { s.onConnectionClose s.will none with reported := true }

/-- `rxRoutine` after the loop: with an error that is no reason code it resumes the netpoll, and
goes on with the result of that. -/
def rxLeave (s : Lifecycle) (err : RxError) (resumed : Bool) : Lifecycle :=
  let s := { s with rxRunning := false, receiving := false }
  match err with
  | .reason code => s.rxDone (some (.reason code))
  | .other => s.rxDone (if resumed then none else some .other)

/-- The session expiry interval of a DISCONNECT packet. -/
def sessionExpiry (h : Header) : Option UInt32 :=
  match h.propertyGet PropertySessionExpiryInterval with
  | none => none
  | some prop =>
      match prop.asInt with
      | .ok val => some val
      | .error _ => none

/-- `processIncoming` for a DISCONNECT packet -/
def processDisconnect (s : Lifecycle) (h : Header) (reasonCode : ReasonCode) :
    Lifecycle × Option RxError :=
  let s := { s with will := false }
  if s.inbound.Version = ProtocolV50 then
    -- the code has the value of `CodeDisconnectWithWill`
    let s := if reasonCode = CodeRefusedBadUsernameOrPassword then { s with will := true } else s
    match sessionExpiry h with
    | none => (s, some .other)
    | some val =>
        if s.ExpireIn = some 0 ∧ val ≠ 0 then (s, some (.reason CodeProtocolError))
        else ({ s with ExpireIn := some val }, some .other)
  else (s, none)

/-- `processIncoming`. The handlers of other packets return no error, and responses only go to the
transmitter. -/
def processIncoming (s : Lifecycle) (deny : GoString → Bool) (now : Time) (pkt : Packet.Message) :
    Lifecycle × Option RxError :=
  match pkt with
  | .publish m =>
      let (inbound, _, err) := s.inbound.onPublish deny now ⟨(), m⟩
      ({ s with inbound }, err.map .of)
  | .control h (.ack reasonCode) =>
      if h.mType = .PUBREL then
        let msg : Ack := ⟨h.version, h.mType, h.packetID, reasonCode⟩
        ({ s with inbound := (s.inbound.onPubRel now msg).1 }, none)
      else (s, none)
  | .control h (.disconnect reasonCode) => s.processDisconnect h reasonCode
  | _ => (s, none)

/-- Write down what `Decode` made of a frame. -/
def read (s : Lifecycle) (frame : Except PacketError Packet.Message) : Lifecycle :=
  { s with frames := s.frames ++ [frame] }

/-- One round of the loop of `rxRoutine` for a frame that was read; `resumed` is whether the netpoll
can be resumed after it. -/
def receive (s : Lifecycle) (buf : Bytes) (deny : GoString → Bool) (now : Time) (resumed : Bool) :
    Lifecycle :=
  match decode s.inbound.Version buf with
  | .error e => (s.read (.error e)).rxLeave (.of e) resumed
  | .ok (pkt, _) =>
      match (s.read (.ok pkt)).processIncoming deny now pkt with
      | (s, none) => s
      | (s, some err) => s.rxLeave err resumed

/-- What can happen next. -/
inductive Op where
  /-- The netpoll calls `rxRun`. -/
  | rxRun (hup : Bool)
  | frame (buf : Bytes) (deny : GoString → Bool) (now : Time) (resumed : Bool)
  /-- `readPacket` fails before it has a frame. -/
  | readError (err : RxError) (resumed : Bool)
  /-- `txRoutine` cannot write to the socket. -/
  | writeError
  | keepAliveExpired
  | stop (reason : ReasonCode)
  /-- The close procedure comes to its end. -/
  | onDisconnect

/-- One step. -/
def step (s : Lifecycle) : Op → Lifecycle
  | .rxRun hup =>
      if s.closing.isSome ∨ s.rxRunning then s
      else
        let s := { s with rxRunning := true }
        if hup then s.rxDone (some .other) else { s with receiving := true }
  | .frame buf deny now resumed => if s.receiving then s.receive buf deny now resumed else s
  | .readError err resumed => if s.receiving then s.rxLeave err resumed else s
  | .writeError => s.onConnectionClose true none
  | .keepAliveExpired => if 0 < s.KeepAlive then s.onConnectionClose true none else s
  | .stop reason => s.onConnectionClose true (some reason)
  | .onDisconnect => s.onDisconnect

/-- Nothing but the handlers' own data changes. -/
structure Handles (s next : Lifecycle) : Prop where
  Version : next.inbound.Version = s.inbound.Version
  KeepAlive : next.KeepAlive = s.KeepAlive
  rxRunning : next.rxRunning = s.rxRunning
  receiving : next.receiving = s.receiving
  closing : next.closing = s.closing
  params : next.params = s.params
  frames : next.frames = s.frames
  reported : next.reported = s.reported

section Parts

variable (s : Lifecycle)

theorem handles_processDisconnect (h : Header) (reasonCode : ReasonCode) :
    s.Handles (s.processDisconnect h reasonCode).1 := by
  simp only [processDisconnect]
  split
  · split
    · split <;> exact ⟨rfl, rfl, rfl, rfl, rfl, rfl, rfl, rfl⟩
    · split <;> split <;> exact ⟨rfl, rfl, rfl, rfl, rfl, rfl, rfl, rfl⟩
  · exact ⟨rfl, rfl, rfl, rfl, rfl, rfl, rfl, rfl⟩

theorem handles_processIncoming (deny : GoString → Bool) (now : Time) (pkt : Packet.Message) :
    s.Handles (s.processIncoming deny now pkt).1 := by
  unfold processIncoming
  split
  · exact ⟨Inbound.version_onPublish _ _ _ _, rfl, rfl, rfl, rfl, rfl, rfl, rfl⟩
  · split
    · exact ⟨Inbound.version_release _ _ _, rfl, rfl, rfl, rfl, rfl, rfl, rfl⟩
    · exact ⟨rfl, rfl, rfl, rfl, rfl, rfl, rfl, rfl⟩
  · exact handles_processDisconnect s _ _
  · exact ⟨rfl, rfl, rfl, rfl, rfl, rfl, rfl, rfl⟩

/-- The close procedure is called, perhaps not for the first time. -/
theorem isSome_onConnectionClose (will : Bool) (err : Option ReasonCode) :
    (s.onConnectionClose will err).closing.isSome = true := by
  unfold onConnectionClose
  split
  · rename_i call held
    rw [held]
    rfl
  · rfl

theorem onConnectionClose_keeps (will : Bool) (err : Option ReasonCode) :
    (s.onConnectionClose will err).frames = s.frames ∧
      (s.onConnectionClose will err).receiving = s.receiving ∧
      (s.onConnectionClose will err).reported = s.reported ∧
      (s.onConnectionClose will err).rxRunning = s.rxRunning := by
  unfold onConnectionClose
  split <;> exact ⟨rfl, rfl, rfl, rfl⟩

/-- The receiver closes the connection exactly when it has an error. -/
theorem rxDone_spec (err : Option RxError) :
    (s.rxDone err).frames = s.frames ∧ (s.rxDone err).receiving = s.receiving ∧
      (s.rxDone err).reported = (s.reported || err.isSome) ∧
      (err.isSome = true → (s.rxDone err).closing.isSome = true) := by
  rcases err with _ | code | _
  · exact ⟨rfl, rfl, by simp [rxDone], by simp⟩
  · have kept := onConnectionClose_keeps s s.will (some code)
    exact ⟨kept.1, kept.2.1, by simp [rxDone], fun _ => isSome_onConnectionClose s _ _⟩
  · have kept := onConnectionClose_keeps s s.will none
    exact ⟨kept.1, kept.2.1, by simp [rxDone], fun _ => isSome_onConnectionClose s _ _⟩

/-- An error that makes the receiver close the connection. -/
def Ends (err : RxError) (resumed : Bool) : Prop := err ≠ .other ∨ resumed = false

instance (err : RxError) (resumed : Bool) : Decidable (Ends err resumed) :=
  inferInstanceAs (Decidable (_ ∨ _))

theorem rxLeave_spec (err : RxError) (resumed : Bool) :
    (s.rxLeave err resumed).frames = s.frames ∧ (s.rxLeave err resumed).receiving = false ∧
      (s.rxLeave err resumed).reported = (s.reported || decide (Ends err resumed)) ∧
      (Ends err resumed → (s.rxLeave err resumed).closing.isSome = true) := by
  let left : Lifecycle := { s with rxRunning := false, receiving := false }
  cases err with
  | reason code =>
      have spec := rxDone_spec left (some (.reason code))
      exact ⟨spec.1, spec.2.1, spec.2.2.1.trans (by simp [Ends, left]), fun _ => spec.2.2.2 rfl⟩
  | other =>
      have spec := rxDone_spec left (if resumed then none else some .other)
      refine ⟨spec.1, spec.2.1, ?_, ?_⟩
      · exact spec.2.2.1.trans (by cases resumed <;> simp [Ends, left])
      · rintro (wrong | rfl)
        · exact absurd rfl wrong
        · exact spec.2.2.2 rfl

end Parts

/-- A frame after which nothing else is to be read: one that does not decode, or a DISCONNECT. -/
def offends : Except PacketError Packet.Message → Bool
  | .error _ => true
  | .ok (.control _ (.disconnect _)) => true
  | .ok _ => false

/-- Once such a frame was read, the receiver has closed the connection, and no frame behind the
first of them was given to `processIncoming`. -/
def Stops (s : Lifecycle) : Prop :=
  (∃ frame ∈ s.frames, offends frame = true) → s.reported = true ∧
    ∀ pkt, .ok pkt ∉ (s.frames.dropWhile fun frame => !offends frame).tail

/-- A DISCONNECT packet that prolongs a session which was to end with its connection. -/
def Prolongs (s : Lifecycle) (h : Header) : Prop :=
  s.ExpireIn = some 0 ∧ ∃ val, sessionExpiry h = some val ∧ val ≠ 0

/-- The first of these frames fails with a reason code: `Decode` refuses it with one, or it is a
V5.0 DISCONNECT that prolongs its session against the rules. Or the netpoll cannot be resumed after
another error. -/
def Heeds (s : Lifecycle) : Op → Prop
  | .frame buf _ _ resumed => s.receiving = true → (∀ frame ∈ s.frames, offends frame = false) →
      match decode s.inbound.Version buf with
      | .error e => (∃ code, e = .reason code) ∨ resumed = false
      | .ok (.control h (.disconnect _), _) =>
          s.inbound.Version = ProtocolV50 ∧ (s.Prolongs h ∨ resumed = false)
      | .ok _ => True
  | _ => True

/-- After the receiver has closed the connection it does not run again. -/
structure Rests (s : Lifecycle) : Prop where
  running : s.receiving = true → s.rxRunning = true
  stopped : s.reported = true → s.receiving = false ∧ s.closing.isSome = true

section Stops

variable {s : Lifecycle}

/-- The error of `processIncoming` for a V5.0 DISCONNECT packet. -/
theorem processDisconnect_error (five : s.inbound.Version = ProtocolV50) (h : Header)
    (reasonCode : ReasonCode) :
    ∃ err, (s.processDisconnect h reasonCode).2 = some err ∧ (err ≠ .other ↔ s.Prolongs h) := by
  simp only [processDisconnect, if_pos five, Prolongs]
  cases sessionExpiry h with
  | none => exact ⟨_, rfl, by simp⟩
  | some val =>
      have kept : (if reasonCode = CodeRefusedBadUsernameOrPassword then
          { s with will := true } else { s with will := false }).ExpireIn = s.ExpireIn := by
        split <;> rfl
      simp only [kept]
      by_cases refused : s.ExpireIn = some 0 ∧ val ≠ 0
      · rw [if_pos refused]
        exact ⟨_, rfl, by simp [refused.1, refused.2]⟩
      · rw [if_neg refused]
        refine ⟨_, rfl, ?_⟩
        simpa using refused

theorem processDisconnect_old (old : s.inbound.Version ≠ ProtocolV50) (h : Header)
    (reasonCode : ReasonCode) : (s.processDisconnect h reasonCode).2 = none := by
  simp only [processDisconnect, if_neg old]

/-- A round of the loop: the frame is written down, and the receiver goes on or leaves. -/
theorem receive_cases (buf : Bytes) (deny : GoString → Bool) (now : Time) (resumed : Bool) :
    (∃ e, decode s.inbound.Version buf = .error e ∧
        s.receive buf deny now resumed = (s.read (.error e)).rxLeave (.of e) resumed) ∨
      ∃ pkt n next, decode s.inbound.Version buf = .ok (pkt, n) ∧ (s.read (.ok pkt)).Handles next ∧
        (((s.read (.ok pkt)).processIncoming deny now pkt = (next, none) ∧
            s.receive buf deny now resumed = next) ∨
          ∃ err, (s.read (.ok pkt)).processIncoming deny now pkt = (next, some err) ∧
            s.receive buf deny now resumed = next.rxLeave err resumed) := by
  unfold receive
  cases decode s.inbound.Version buf with
  | error e => exact .inl ⟨e, rfl, rfl⟩
  | ok pair =>
      rcases pair with ⟨pkt, n⟩
      have handles := handles_processIncoming (s.read (.ok pkt)) deny now pkt
      rcases result : (s.read (.ok pkt)).processIncoming deny now pkt with ⟨next, _ | err⟩
      · rw [result] at handles
        exact .inr ⟨pkt, n, next, rfl, handles, .inl ⟨result, by simp only [result]⟩⟩
      · rw [result] at handles
        exact .inr ⟨pkt, n, next, rfl, handles, .inr ⟨err, result, by simp only [result]⟩⟩

theorem rests_of_rxLeave (quiet : s.reported = false) (err : RxError) (resumed : Bool) :
    (s.rxLeave err resumed).Rests := by
  have spec := rxLeave_spec s err resumed
  refine ⟨fun receiving => ?_, fun reported => ?_⟩
  · rw [spec.2.1] at receiving
    cases receiving
  · rw [spec.2.2.1, quiet, Bool.false_or, decide_eq_true_eq] at reported
    exact ⟨spec.2.1, spec.2.2.2 reported⟩

/-- While the receiver runs it has not closed the connection. -/
theorem Rests.quiet (rests : s.Rests) (receiving : s.receiving = true) : s.reported = false := by
  cases reported : s.reported with
  | false => rfl
  | true =>
      have stopped := (rests.stopped reported).1
      rw [receiving] at stopped
      cases stopped

theorem Rests.onConnectionClose (rests : s.Rests) (will : Bool) (err : Option ReasonCode) :
    (s.onConnectionClose will err).Rests := by
  have kept := onConnectionClose_keeps s will err
  refine ⟨fun receiving => ?_, fun reported => ?_⟩
  · rw [kept.2.2.2]
    exact rests.running (kept.2.1 ▸ receiving)
  · rw [kept.2.1]
    exact ⟨(rests.stopped (kept.2.2.1 ▸ reported)).1, isSome_onConnectionClose s will err⟩

theorem Rests.receive (rests : s.Rests) (receiving : s.receiving = true) (buf : Bytes)
    (deny : GoString → Bool) (now : Time) (resumed : Bool) :
    (s.receive buf deny now resumed).Rests := by
  have quiet := rests.quiet receiving
  rcases @receive_cases s buf deny now resumed with ⟨e, -, run⟩ |
    ⟨pkt, n, next, -, handles, ⟨-, run⟩ | ⟨err, -, run⟩⟩
  · rw [run]
    exact @rests_of_rxLeave (s.read (.error e)) quiet _ _
  · have still : next.reported = false := handles.reported.trans quiet
    rw [run]
    refine ⟨fun _ => handles.rxRunning.trans (rests.running receiving), fun reported => ?_⟩
    rw [still] at reported
    cases reported
  · rw [run]
    exact rests_of_rxLeave (handles.reported.trans quiet) _ _

theorem Rests.rxRun (rests : s.Rests) (hup : Bool) : (s.step (.rxRun hup)).Rests := by
  simp only [Lifecycle.step]
  split
  · exact rests
  · rename_i idle
    rw [not_or] at idle
    have quiet : s.reported = false := by
      cases reported : s.reported with
      | false => rfl
      | true => exact absurd (rests.stopped reported).2 idle.1
    have alone : s.receiving = false := by
      cases receiving : s.receiving with
      | false => rfl
      | true => exact absurd (rests.running receiving) idle.2
    split
    · have spec := rxDone_spec { s with rxRunning := true } (some .other)
      have left : (({ s with rxRunning := true } : Lifecycle).rxDone (some .other)).receiving =
        false := spec.2.1.trans alone
      refine ⟨fun receiving => ?_, fun _ => ⟨left, spec.2.2.2 rfl⟩⟩
      rw [left] at receiving
      cases receiving
    · refine ⟨fun _ => rfl, fun reported => ?_⟩
      have still : s.reported = true := reported
      rw [quiet] at still
      cases still

theorem Rests.step (rests : s.Rests) (op : Op) : (s.step op).Rests := by
  cases op with
  | rxRun hup => exact rests.rxRun hup
  | frame buf deny now resumed =>
      simp only [Lifecycle.step]
      split
      · rename_i receiving
        exact rests.receive receiving buf deny now resumed
      · exact rests
  | readError err resumed =>
      simp only [Lifecycle.step]
      split
      · rename_i receiving
        exact rests_of_rxLeave (rests.quiet receiving) err resumed
      · exact rests
  | writeError => exact rests.onConnectionClose true none
  | keepAliveExpired =>
      simp only [Lifecycle.step]
      split
      · exact rests.onConnectionClose true none
      · exact rests
  | stop reason => exact rests.onConnectionClose true (some reason)
  | onDisconnect =>
      simp only [Lifecycle.step, Lifecycle.onDisconnect]
      split
      · split <;> exact ⟨rests.running, rests.stopped⟩
      · exact rests

/-- Steps that read no frame, and frames while the receiver does not run. -/
theorem frames_step {op : Op} (other : ∀ buf deny now resumed, op = .frame buf deny now resumed →
    s.receiving = false) :
    (s.step op).frames = s.frames ∧ (s.reported = true → (s.step op).reported = true) := by
  have closes : ∀ will err, (s.onConnectionClose will err).frames = s.frames ∧
      (s.reported = true → (s.onConnectionClose will err).reported = true) := by
    intro will err
    have kept := onConnectionClose_keeps s will err
    exact ⟨kept.1, fun reported => kept.2.2.1.trans reported⟩
  cases op with
  | rxRun hup =>
      simp only [step]
      split
      · exact ⟨rfl, id⟩
      · split
        · have spec := rxDone_spec { s with rxRunning := true } (some .other)
          exact ⟨spec.1, fun _ => spec.2.2.1.trans (by simp)⟩
        · exact ⟨rfl, id⟩
  | frame buf deny now resumed =>
      have skipped : s.step (.frame buf deny now resumed) = s := by
        simp [step, other buf deny now resumed rfl]
      rw [skipped]
      exact ⟨rfl, id⟩
  | readError err resumed =>
      simp only [step]
      split
      · have spec := rxLeave_spec s err resumed
        exact ⟨spec.1, fun reported => spec.2.2.1.trans (by simp [reported])⟩
      · exact ⟨rfl, id⟩
  | writeError => exact closes true none
  | keepAliveExpired =>
      simp only [step]
      split
      · exact closes true none
      · exact ⟨rfl, id⟩
  | stop reason => exact closes true (some reason)
  | onDisconnect =>
      simp only [step, onDisconnect]
      split
      · split <;> exact ⟨rfl, id⟩
      · exact ⟨rfl, id⟩

/-- When the first offending frame is read, nothing is behind it. -/
theorem stops_of_append {next : Lifecycle} {frame : Except PacketError Packet.Message}
    (clean : ∀ frame ∈ s.frames, offends frame = false) (read : next.frames = s.frames ++ [frame]) :
    next.Stops ↔ (offends frame = true → next.reported = true) := by
  rw [Stops, read]
  constructor
  · exact fun stops wrong => (stops ⟨frame, by simp, wrong⟩).1
  · rintro reports ⟨first, member, wrong⟩
    have last : first = frame := by
      rcases List.mem_append.mp member with before | here
      · rw [clean first before] at wrong
        cases wrong
      · exact List.mem_singleton.mp here
    rw [last] at wrong
    rw [List.dropWhile_append_of_pos fun other before => by simp [clean other before]]
    exact ⟨reports wrong, by simp [wrong]⟩

/-- The receiver closes the connection when it leaves with the error of the frame. -/
theorem stops_rxLeave_iff {next : Lifecycle} {frame : Except PacketError Packet.Message}
    (err : RxError) (resumed : Bool) (quiet : next.reported = false)
    (clean : ∀ frame ∈ s.frames, offends frame = false) (read : next.frames = s.frames ++ [frame])
    (wrong : offends frame = true) :
    (next.rxLeave err resumed).Stops ↔ err ≠ .other ∨ resumed = false := by
  have spec := rxLeave_spec next err resumed
  rw [stops_of_append clean (spec.1.trans read), spec.2.2.1, quiet, Bool.false_or,
    decide_eq_true_eq]
  exact ⟨fun reports => reports wrong, fun ends _ => ends⟩

/-- A round of the loop for a DISCONNECT packet: only with V5.0 does it end the loop. -/
theorem stops_receive_disconnect_iff {h : Header} {reasonCode : ReasonCode} {buf : Bytes}
    {deny : GoString → Bool} {now : Time} {resumed : Bool} {n : ℕ} (quiet : s.reported = false)
    (clean : ∀ frame ∈ s.frames, offends frame = false)
    (decoded : decode s.inbound.Version buf = .ok (.control h (.disconnect reasonCode), n)) :
    (s.receive buf deny now resumed).Stops ↔
      s.inbound.Version = ProtocolV50 ∧ (s.Prolongs h ∨ resumed = false) := by
  let taken := s.read (.ok (.control h (.disconnect reasonCode)))
  have handles : taken.Handles (taken.processDisconnect h reasonCode).1 :=
    handles_processDisconnect taken h reasonCode
  have still : (taken.processDisconnect h reasonCode).1.reported = false :=
    handles.reported.trans quiet
  have frames : (taken.processDisconnect h reasonCode).1.frames =
      s.frames ++ [.ok (.control h (.disconnect reasonCode))] := handles.frames
  have round : s.receive buf deny now resumed =
      match taken.processDisconnect h reasonCode with
      | (s, none) => s
      | (s, some err) => s.rxLeave err resumed := by
    rw [receive, decoded]
    rfl
  rw [round]
  generalize outcome : taken.processDisconnect h reasonCode = result at still frames
  rcases result with ⟨next, err⟩
  by_cases five : s.inbound.Version = ProtocolV50
  · rcases @processDisconnect_error taken five h reasonCode with ⟨last, failed, kind⟩
    rw [outcome] at failed
    simp only at failed
    rw [failed]
    simp only
    rw [stops_rxLeave_iff last resumed still clean frames rfl, kind]
    exact (and_iff_right five).symm
  · have goesOn := @processDisconnect_old taken five h reasonCode
    rw [outcome] at goesOn
    simp only at goesOn still
    rw [goesOn]
    simp only
    rw [stops_of_append clean frames, still]
    simp [offends, five]

/-- A round of the loop. -/
theorem stops_receive_iff (quiet : s.reported = false)
    (clean : ∀ frame ∈ s.frames, offends frame = false) (receiving : s.receiving = true)
    (buf : Bytes) (deny : GoString → Bool) (now : Time) (resumed : Bool) :
    (s.receive buf deny now resumed).Stops ↔ s.Heeds (.frame buf deny now resumed) := by
  simp only [Heeds, receiving, true_imp_iff]
  rw [imp_iff_right clean]
  rcases @receive_cases s buf deny now resumed with ⟨e, decoded, run⟩ |
    ⟨pkt, n, next, decoded, handles, outcome⟩
  · rw [run, decoded, @stops_rxLeave_iff s (s.read (.error e)) _ _ _ quiet clean rfl rfl,
      RxError.of_ne_other]
  · by_cases disconnect : ∃ h reasonCode, pkt = .control h (.disconnect reasonCode)
    · rcases disconnect with ⟨h, reasonCode, rfl⟩
      rw [stops_receive_disconnect_iff quiet clean decoded, decoded]
    · -- no other packet offends
      have wrong : offends (.ok pkt) = false := by
        unfold offends
        split
        · rename_i e failed
          cases failed
        · rename_i h reasonCode same
          exact absurd ⟨h, reasonCode, Except.ok.inj same⟩ disconnect
        · rfl
      have frames : next.frames = s.frames ++ [.ok pkt] := handles.frames
      have fine : (s.receive buf deny now resumed).Stops := by
        rcases outcome with ⟨-, run⟩ | ⟨last, -, run⟩
        · rw [run, stops_of_append clean frames, wrong]
          exact fun offending => by cases offending
        · rw [run, stops_of_append clean ((rxLeave_spec next last resumed).1.trans frames), wrong]
          exact fun offending => by cases offending
      rw [decoded]
      refine iff_of_true fine ?_
      split
      · rename_i e failed
        cases failed
      · rename_i h reasonCode count same
        exact absurd ⟨h, reasonCode, (Prod.mk.inj (Except.ok.inj same)).1⟩ disconnect
      · trivial

theorem stops_step_iff (rests : s.Rests) (stops : s.Stops) (op : Op) :
    (s.step op).Stops ↔ s.Heeds op := by
  by_cases reads : ∃ buf deny now resumed, op = .frame buf deny now resumed ∧ s.receiving = true
  · rcases reads with ⟨buf, deny, now, resumed, rfl, receiving⟩
    have quiet := rests.quiet receiving
    have clean : ∀ frame ∈ s.frames, offends frame = false := by
      intro frame member
      by_contra wrong
      have reported := (stops ⟨frame, member, by simpa using wrong⟩).1
      rw [quiet] at reported
      cases reported
    have round : s.step (.frame buf deny now resumed) = s.receive buf deny now resumed := by
      rw [step, if_pos receiving]
    rw [round]
    exact stops_receive_iff quiet clean receiving buf deny now resumed
  · have idle : ∀ buf deny now resumed, op = .frame buf deny now resumed → s.receiving = false := by
      intro buf deny now resumed same
      by_contra receiving
      exact reads ⟨buf, deny, now, resumed, same, by simpa using receiving⟩
    have kept := frames_step idle
    have still : (s.step op).Stops := by
      rw [Stops, kept.1]
      exact fun offended => ⟨kept.2 (stops offended).1, (stops offended).2⟩
    refine iff_of_true still ?_
    cases op with
    | frame buf deny now resumed =>
        intro receiving
        rw [idle buf deny now resumed rfl] at receiving
        cases receiving
    | _ => trivial

end Stops

/-- In every run of a connection, the receiver stops at the first frame that is a DISCONNECT or does
not decode exactly when each such frame comes with an error that it heeds. -/
theorem stops_run_iff (inbound : Inbound Unit) (KeepAlive : UInt16) (ExpireIn : Option UInt32)
    (ops : List Op) :
    (∀ n, ((ops.take n).foldl step (new inbound KeepAlive ExpireIn)).Stops) ↔
      Along step Heeds (new inbound KeepAlive ExpireIn) ops := by
  have start : (new inbound KeepAlive ExpireIn).Rests :=
    ⟨fun receiving => absurd receiving (by simp [new]),
      fun reported => absurd reported (by simp [new])⟩
  have idle : (new inbound KeepAlive ExpireIn).Stops := by
    rintro ⟨frame, member, -⟩
    cases member
  rw [always_iff_along Rests Stops (fun s op rests => rests.step op)
    (fun s op rests stops => stops_step_iff rests stops op) start ops]
  exact and_iff_right idle

/-- A V3.1.1 client sends a DISCONNECT and then a PINGREQ. -/
def sampleChatter : List Op :=
  [.rxRun false, .frame [0xE0, 0] (fun _ => false) 0 true, .frame [0xC0, 0] (fun _ => false) 0 true]

/-- The receiver goes on as if nothing had happened. -/
theorem sampleChatter_goes_on :
    let s := sampleChatter.foldl step (new (.new ProtocolV311 true 0 0) 60 none)
    s.frames.map offends = [true, false] ∧ s.receiving = true ∧ s.reported = false ∧ ¬s.Stops := by
  refine ⟨rfl, rfl, rfl, ?_⟩
  intro stops
  have reported := (stops ⟨_, List.mem_cons_self, rfl⟩).1
  cases reported

end Lifecycle

end VolantMQ.Connection
