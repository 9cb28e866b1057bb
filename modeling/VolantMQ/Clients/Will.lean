import VolantMQ.Clients.TimerLaw
import VolantMQ.Connection.Lifecycle

/-!
# The will after a DISCONNECT

A client that sends a DISCONNECT packet leaves in good order, and its will is not to be published.
The receiver remembers the packet in a flag, but of the four that can close the connection only the
receiver looks at it. The session publishes the will or not as it is told by the first of them.
-/

namespace VolantMQ.Connection

open Lib Packet

namespace Lifecycle

/-- A DISCONNECT packet without the code that asks for the will. -/
def dismisses : Except PacketError Packet.Message → Bool
  | .ok (.control _ (.disconnect reasonCode)) => reasonCode ≠ CodeRefusedBadUsernameOrPassword
  | _ => false

/-- Such a packet was processed. -/
def Dismissed (s : Lifecycle) : Prop := ∃ frame ∈ s.frames, dismisses frame = true

/-- The session is told not to publish the will. -/
def NoWill (s : Lifecycle) : Prop :=
  s.Dismissed → ∀ p, s.params = some p → p.Will = false

/-- After such a packet neither the transmitter nor the timer nor the server is the first to close
the connection, and no other DISCONNECT asks for the will; and no such packet is processed while one
of those three is closing it. -/
def Courteous (s : Lifecycle) : Op → Prop
  | .writeError => s.closing = none → ¬s.Dismissed
  | .keepAliveExpired => 0 < s.KeepAlive → s.closing = none → ¬s.Dismissed
  | .stop _ => s.closing = none → ¬s.Dismissed
  | .frame buf _ _ _ => s.receiving = true → ∀ h reasonCode n,
      decode s.inbound.Version buf = .ok (.control h (.disconnect reasonCode), n) →
        (s.closing = none → s.Dismissed → reasonCode ≠ CodeRefusedBadUsernameOrPassword) ∧
        ∀ call, s.closing = some call → call.will = true →
          reasonCode = CodeRefusedBadUsernameOrPassword
  | _ => True

/-- Whoever closes the connection, or is going to, knows about the packet. -/
structure Informed (s : Lifecycle) : Prop where
  open_ : s.closing = none → s.Dismissed → s.will = false
  closing : ∀ call, s.closing = some call → s.Dismissed → call.will = false
  params : ∀ p, s.params = some p → ∃ call, s.closing = some call ∧ p.Will = call.will

section Will

variable {s : Lifecycle}

theorem Informed.noWill (informed : s.Informed) : s.NoWill := by
  intro dismissed p given
  rcases informed.params p given with ⟨call, closing, same⟩
  rw [same]
  exact informed.closing call closing dismissed

/-- A call with a will that takes the packet into account. -/
theorem Informed.onConnectionClose (informed : s.Informed) {will : Bool}
    (known : s.closing = none → s.Dismissed → will = false) (err : Option ReasonCode) :
    (s.onConnectionClose will err).Informed := by
  unfold Lifecycle.onConnectionClose
  split
  · exact informed
  · rename_i first
    refine ⟨fun still => absurd still (by simp), ?_, ?_⟩
    · rintro call ⟨⟩ dismissed
      exact known first dismissed
    · intro p given
      rcases informed.params p given with ⟨call, closing, -⟩
      rw [first] at closing
      cases closing

theorem Informed.rxDone (informed : s.Informed) (err : Option RxError) :
    (s.rxDone err).Informed := by
  rcases err with _ | code | _
  · exact informed
  · have called := informed.onConnectionClose informed.open_ (some code)
    exact ⟨called.open_, called.closing, called.params⟩
  · have called := informed.onConnectionClose informed.open_ none
    exact ⟨called.open_, called.closing, called.params⟩

theorem Informed.rxLeave (informed : s.Informed) (err : RxError) (resumed : Bool) :
    (s.rxLeave err resumed).Informed := by
  have left : ({ s with rxRunning := false, receiving := false } : Lifecycle).Informed :=
    ⟨informed.open_, informed.closing, informed.params⟩
  cases err with
  | reason code => exact left.rxDone (some (.reason code))
  | other => exact left.rxDone (if resumed then none else some .other)

theorem dismissed_read_iff (frame : Except PacketError Packet.Message) :
    (s.read frame).Dismissed ↔ s.Dismissed ∨ dismisses frame = true := by
  simp [Dismissed, read, or_and_right, exists_or]

/-- The handlers of all other packets leave the flag alone. -/
theorem will_processIncoming (deny : GoString → Bool) (now : Time) {pkt : Packet.Message}
    (other : ∀ h reasonCode, pkt ≠ .control h (.disconnect reasonCode)) :
    (s.processIncoming deny now pkt).1.will = s.will := by
  unfold processIncoming
  split
  · rfl
  · split <;> rfl
  · rename_i h reasonCode
    exact absurd rfl (other h reasonCode)
  · rfl

theorem will_processDisconnect (h : Header) {reasonCode : ReasonCode}
    (plain : reasonCode ≠ CodeRefusedBadUsernameOrPassword) :
    (s.processDisconnect h reasonCode).1.will = false := by
  simp only [processDisconnect, if_neg plain]
  split
  · split
    · rfl
    · split <;> rfl
  · rfl

/-- A packet that was processed. -/
theorem Informed.handled (informed : s.Informed) {pkt : Packet.Message} {next : Lifecycle}
    (handles : (s.read (.ok pkt)).Handles next)
    (running : s.closing = none → s.Dismissed ∨ dismisses (.ok pkt) = true → next.will = false)
    (ending : ∀ call, s.closing = some call → dismisses (.ok pkt) = true → call.will = false) :
    next.Informed := by
  have dismissed : next.Dismissed ↔ s.Dismissed ∨ dismisses (.ok pkt) = true := by
    rw [← dismissed_read_iff, Dismissed, Dismissed, handles.frames]
  have closing : next.closing = s.closing := handles.closing
  have params : next.params = s.params := handles.params
  refine ⟨?_, ?_, ?_⟩
  · rw [closing, dismissed]
    exact running
  · intro call held
    rw [closing] at held
    rw [dismissed]
    rintro (before | now)
    · exact informed.closing call held before
    · exact ending call held now
  · rw [params, closing]
    exact informed.params

/-- A DISCONNECT packet that keeps to the rules. -/
theorem Informed.disconnected (informed : s.Informed) {h : Header} {reasonCode : ReasonCode}
    (running : s.closing = none → s.Dismissed → reasonCode ≠ CodeRefusedBadUsernameOrPassword)
    (ending : ∀ call, s.closing = some call → call.will = true →
      reasonCode = CodeRefusedBadUsernameOrPassword) :
    ((s.read (.ok (.control h (.disconnect reasonCode)))).processDisconnect h
      reasonCode).1.Informed := by
  refine informed.handled (handles_processDisconnect _ h reasonCode) ?_ ?_
  · intro first before
    apply will_processDisconnect h
    rcases before with earlier | plain
    · exact running first earlier
    · simpa [dismisses] using plain
  · intro call held plain
    by_contra set
    have asks := ending call held (by simpa using set)
    simp [dismisses, asks] at plain

/-- Any other packet. -/
theorem Informed.processed (informed : s.Informed) (deny : GoString → Bool) (now : Time)
    {pkt : Packet.Message} (other : ∀ h reasonCode, pkt ≠ .control h (.disconnect reasonCode)) :
    ((s.read (.ok pkt)).processIncoming deny now pkt).1.Informed := by
  have silent : dismisses (.ok pkt) = false := by
    unfold dismisses
    split
    · rename_i h reasonCode same
      exact absurd (Except.ok.inj same) (other h reasonCode)
    · rfl
  refine informed.handled (handles_processIncoming _ deny now pkt) ?_ ?_
  · intro first before
    rw [silent] at before
    rw [will_processIncoming deny now other]
    exact informed.open_ first (before.resolve_right (by simp))
  · intro call held plain
    rw [silent] at plain
    cases plain

/-- A frame that does not decode. -/
theorem Informed.failed (informed : s.Informed) (e : PacketError) :
    (s.read (.error e)).Informed := by
  have same : (s.read (.error e)).Dismissed ↔ s.Dismissed := by
    rw [dismissed_read_iff]
    simp [dismisses]
  exact ⟨fun first before => informed.open_ first (same.mp before),
    fun call held before => informed.closing call held (same.mp before), informed.params⟩

theorem Informed.receive (informed : s.Informed) (receiving : s.receiving = true) (buf : Bytes)
    (deny : GoString → Bool) (now : Time) (resumed : Bool)
    (courteous : s.Courteous (.frame buf deny now resumed)) :
    (s.receive buf deny now resumed).Informed := by
  rcases @receive_cases s buf deny now resumed with ⟨e, -, run⟩ |
    ⟨pkt, n, next, decoded, -, outcome⟩
  · rw [run]
    exact (informed.failed e).rxLeave _ _
  · have processed : next = ((s.read (.ok pkt)).processIncoming deny now pkt).1 := by
      rcases outcome with ⟨result, -⟩ | ⟨err, result, -⟩ <;> rw [result]
    have told : next.Informed := by
      rw [processed]
      by_cases disconnect : ∃ h reasonCode, pkt = .control h (.disconnect reasonCode)
      · rcases disconnect with ⟨h, reasonCode, rfl⟩
        have rules := courteous receiving h reasonCode n decoded
        exact informed.disconnected rules.1 rules.2
      · exact informed.processed deny now fun h reasonCode same => disconnect ⟨h, reasonCode, same⟩
    rcases outcome with ⟨-, run⟩ | ⟨err, -, run⟩
    · rw [run]
      exact told
    · rw [run]
      exact told.rxLeave err resumed

theorem Informed.step (informed : s.Informed) {op : Op} (courteous : s.Courteous op) :
    (s.step op).Informed := by
  cases op with
  | rxRun hup =>
      simp only [Lifecycle.step]
      split
      · exact informed
      · have started : ({ s with rxRunning := true } : Lifecycle).Informed :=
          ⟨informed.open_, informed.closing, informed.params⟩
        split
        · exact started.rxDone (some .other)
        · exact ⟨informed.open_, informed.closing, informed.params⟩
  | frame buf deny now resumed =>
      simp only [Lifecycle.step]
      split
      · rename_i receiving
        exact informed.receive receiving buf deny now resumed courteous
      · exact informed
  | readError err resumed =>
      simp only [Lifecycle.step]
      split
      · exact informed.rxLeave err resumed
      · exact informed
  | writeError =>
      exact informed.onConnectionClose (fun first before => absurd before (courteous first)) none
  | keepAliveExpired =>
      simp only [Lifecycle.step]
      split
      · rename_i armed
        exact informed.onConnectionClose
          (fun first before => absurd before (courteous armed first)) none
      · exact informed
  | stop reason =>
      exact informed.onConnectionClose (fun first before => absurd before (courteous first))
        (some reason)
  | onDisconnect =>
      simp only [Lifecycle.step, Lifecycle.onDisconnect]
      split
      · rename_i call held fresh
        split
        · exact informed
        · refine ⟨informed.open_, informed.closing, ?_⟩
          rintro p ⟨⟩
          exact ⟨call, held, rfl⟩
      · exact informed

end Will

/-- In every run of a connection, at every time, the session is told not to publish the will once a
DISCONNECT packet without the code for it was processed, if after it the receiver is the first to
close the connection and no other DISCONNECT packet asks for the will. -/
theorem noWill_run (inbound : Inbound Unit) (KeepAlive : UInt16) (ExpireIn : Option UInt32)
    (ops : List Op) (courteous : Along step Courteous (new inbound KeepAlive ExpireIn) ops)
    (n : ℕ) :
    ((ops.take n).foldl step (new inbound KeepAlive ExpireIn)).NoWill := by
  have start : (new inbound KeepAlive ExpireIn).Informed := by
    refine ⟨?_, ?_, ?_⟩
    · rintro - ⟨frame, member, -⟩
      cases member
    · rintro call ⟨⟩
    · rintro p ⟨⟩
  exact (courteous.always Informed (fun _ _ informed fine => informed.step fine) start n).noWill

end Lifecycle

end VolantMQ.Connection

namespace VolantMQ.Clients

open Lib Packet Connection

/-- Once a DISCONNECT packet without the code for the will was processed, the session is told not to
publish it, and a session that ends a connection in this way never does. -/
def Silent (s : Lifecycle) : Prop :=
  s.Dismissed → ∀ p, s.params = some p → p.Will = false ∧
    ∀ (start : Int) (ops : List (Timeline.Op Publish)),
      ∀ episode ∈ (ops.foldl Timeline.step (.new start)).episodes, ∀ t₀ ending,
        episode.ended = some (t₀, ending) → ending.will = p.Will → episode.published = []

/-- In every run of a connection, at every time, no will is published after such a packet, if after
it the receiver is the first to close the connection and no other DISCONNECT packet asks for the
will. -/
theorem silent_run (inbound : Inbound Unit) (KeepAlive : UInt16) (ExpireIn : Option UInt32)
    (ops : List Lifecycle.Op)
    (courteous : Along Lifecycle.step Lifecycle.Courteous (.new inbound KeepAlive ExpireIn) ops)
    (n : ℕ) : Silent ((ops.take n).foldl Lifecycle.step (.new inbound KeepAlive ExpireIn)) := by
  have noWill := Lifecycle.noWill_run inbound KeepAlive ExpireIn ops courteous n
  intro dismissed p given
  have silent := noWill dismissed p given
  refine ⟨silent, fun start timeline episode member t₀ ending ended told => ?_⟩
  have inv := invariant_run Timeline.Inv (fun _ op before => before.step op)
    (Timeline.inv_new start) timeline
  exact inv.published_eq_nil member ended (told.trans silent)

/-- A V3.1.1 client leaves and closes its socket. -/
def sampleLeave : List Lifecycle.Op :=
  [.rxRun false, .frame [0xE0, 0] (fun _ => false) 0 true, .readError .other true, .rxRun true,
    .onDisconnect]

theorem sampleLeave_silent :
    let s := sampleLeave.foldl Lifecycle.step (.new (.new ProtocolV311 true 0 0) 60 none)
    s.params = some ⟨false, none, CodeSuccess⟩ ∧ Silent s := by
  refine ⟨rfl, silent_run (.new ProtocolV311 true 0 0) 60 none sampleLeave ?_ 5⟩
  refine ⟨trivial, ?_, trivial, trivial, trivial, trivial⟩
  rintro - h reasonCode n -
  refine ⟨?_, ?_⟩
  · rintro - ⟨frame, member, -⟩
    cases member
  · rintro call ⟨⟩

/-- A V3.1.1 client leaves, and the server is stopped before it closes its socket. -/
def sampleStop : List Lifecycle.Op :=
  [.rxRun false, .frame [0xE0, 0] (fun _ => false) 0 true, .stop CodeServerShuttingDown,
    .readError .other false, .onDisconnect]

theorem sampleStop_publishes :
    let s := sampleStop.foldl Lifecycle.step (.new (.new ProtocolV311 true 0 0) 60 none)
    s.frames.map Lifecycle.dismisses = [true] ∧ s.params = some ⟨true, none, CodeSuccess⟩ ∧
      ¬Silent s := by
  refine ⟨rfl, rfl, ?_⟩
  intro silent
  have told := (silent ⟨_, List.mem_cons_self, rfl⟩ _ rfl).1
  cases told

end VolantMQ.Clients
