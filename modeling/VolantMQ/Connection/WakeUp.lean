import VolantMQ.Lib.Run
import VolantMQ.Lib.Threads

/-!
# Waking the transmitter

Whoever puts a packet into one of the queues of a connection signals that on the channel
`txAvailable` and starts a transmitter if the flag `txRunning` says that there is none. The
transmitter clears the flag when it finds nothing more to send. Between its last look into the
queues and the store that clears the flag it seems to be running, but will not look again.

The steps below are those between which the threads of an open connection can be interrupted. The
packets are not looked into, and writes succeed.
-/

namespace VolantMQ.Connection

open Lib

/-- Where a call of `gPush`, `qPush` or `signalQuota` is, behind its change of a queue. -/
inductive Pusher where
  /-- Before `txSignalAvailable`. -/
  | signal
  /-- Before the compare-and-swap of `txRun`. -/
  | swap
  /-- Before `txWg.Wait`. -/
  | wait
  /-- Before `txWg.Add`. -/
  | go
  deriving DecidableEq, Repr

/-- The case of the `select` in `txRoutine` that looks into the queues; the second one with the
number of buffers before and after the packets were added. -/
inductive TxCase where
  | timer
  | available (prevLen sendBuffers : ℕ)
  deriving DecidableEq, Repr

/-- Without a packet in the queues, `txRoutine` is going to stop. -/
def TxCase.final : TxCase → Bool
  | timer => true
  | available prevLen sendBuffers => prevLen ≠ 0 && 5 ≤ sendBuffers

/-- Where a goroutine is in `txRoutine`, with the number of its buffers. -/
inductive TxRoutine where
  /-- Before the condition of the loop. -/
  | loop (sendBuffers : ℕ)
  | select (sendBuffers : ℕ)
  | gPopPacket (sendBuffers : ℕ)
  | qPopPacket (sendBuffers packets : ℕ)
  | encode (sendBuffers packets : ℕ)
  | qAvailable (case_ : TxCase)
  | gAvailable (case_ : TxCase)
  /-- Before `txSignalAvailable`. -/
  | signal (case_ : TxCase)
  /-- Before `txTimer.Reset`. -/
  | reset (sendBuffers : ℕ)
  /-- Before `txTimer.Stop`. -/
  | flush (available : Bool)
  /-- Before `txRunning` is set to zero. -/
  | store
  deriving DecidableEq, Repr

/-- The end of a case. -/
def TxCase.next (available : Bool) : TxCase → TxRoutine
  | timer => if available then .loop 0 else .store
  | TxCase.available prevLen sendBuffers =>
      if prevLen = 0 then .reset sendBuffers
      else if 5 ≤ sendBuffers then .flush available
      else .loop sendBuffers

/-- The parts of `connection.Type` that the threads share, and the threads. -/
structure Tx (α : Type) where
  txGMessages : List α
  txQMessages : List α
  txQuotaExceeded : Bool
  /-- The channel of this name is full. -/
  txAvailable : Bool
  txRunning : Bool
  /-- `txTimer` is running. -/
  armed : Bool
  /-- The channel of `txTimer` is full. -/
  tick : Bool
  pushers : List Pusher
  transmitters : List TxRoutine

/-- What is left open about a step of the transmitter. -/
structure TxChoice where
  /-- The `select` takes the case of the timer. -/
  tick : Bool
  /-- There is no quota left after this packet. -/
  exceeded : Bool
  /-- The number of packets that were encoded. -/
  encoded : ℕ

namespace Tx

variable {α : Type}

def gAvailable (s : Tx α) : Bool := !s.txGMessages.isEmpty

def qAvailable (s : Tx α) : Bool := !s.txQuotaExceeded && !s.txQMessages.isEmpty

/-- There is something to send. -/
def pending (s : Tx α) : Bool := s.gAvailable || s.qAvailable

/-- What can happen next. -/
inductive Op (α : Type) where
  | gPush (pkt : α)
  | qPush (pkt : α)
  | signalQuota
  /-- A push goes on. -/
  | push (i : ℕ)
  /-- A transmitter goes on. -/
  | transmit (i : ℕ) (choice : TxChoice)
  | fire

/-- A push goes on; the threads that take its place are the pushers and transmitters. -/
def push (s : Tx α) (i : ℕ) : Pusher → Tx α
  | .signal => { s with txAvailable := true, pushers := replaceAt s.pushers i [.swap] }
  | .swap =>
      if s.txRunning then { s with pushers := replaceAt s.pushers i [] }
      else { s with txRunning := true, pushers := replaceAt s.pushers i [.wait] }
  | .wait =>
      if s.transmitters.isEmpty then { s with pushers := replaceAt s.pushers i [.go] } else s
  | .go =>
      { s with
        pushers := replaceAt s.pushers i []
        transmitters := s.transmitters ++ [.loop 0] }

/-- A transmitter goes on. -/
def transmit (s : Tx α) (i : ℕ) (choice : TxChoice) : TxRoutine → Tx α
  | .loop n =>
      if s.txRunning then { s with transmitters := replaceAt s.transmitters i [.select n] }
      else { s with transmitters := replaceAt s.transmitters i [] }
  | .select n =>
      if choice.tick then
        if s.tick then
          { s with
            tick := false
            transmitters := replaceAt s.transmitters i [.qAvailable .timer] }
        else s
      else if s.txAvailable then
        { s with
          txAvailable := false
          transmitters := replaceAt s.transmitters i [.gPopPacket n] }
      else s
  | .gPopPacket n =>
      { s with
        txGMessages := s.txGMessages.tail
        transmitters := replaceAt s.transmitters i
          [.qPopPacket n (if s.txGMessages.isEmpty then 0 else 1)] }
  | .qPopPacket n packets =>
      if s.qAvailable then
        { s with
          txQMessages := s.txQMessages.tail
          txQuotaExceeded := choice.exceeded
          transmitters := replaceAt s.transmitters i [.encode n (packets + 1)] }
      else { s with transmitters := replaceAt s.transmitters i [.encode n packets] }
  | .encode n packets =>
      { s with
        transmitters := replaceAt s.transmitters i
          [.qAvailable (.available n (n + min choice.encoded packets))] }
  | .qAvailable case_ =>
      { s with
        transmitters := replaceAt s.transmitters i
          [if s.qAvailable then .signal case_ else .gAvailable case_] }
  | .gAvailable case_ =>
      { s with
        transmitters := replaceAt s.transmitters i
          [if s.gAvailable then .signal case_ else case_.next false] }
  | .signal case_ =>
      { s with
        txAvailable := true
        transmitters := replaceAt s.transmitters i [case_.next true] }
  | .reset n =>
      { s with armed := true, transmitters := replaceAt s.transmitters i [.loop n] }
  | .flush available =>
      { s with
        armed := false
        transmitters := replaceAt s.transmitters i [if available then .loop 0 else .store] }
  | .store =>
      { s with txRunning := false, transmitters := replaceAt s.transmitters i [.loop 0] }

/-- One step. A thread that does not exist does nothing. -/
def step (s : Tx α) : Op α → Tx α
  | .gPush pkt =>
      { s with txGMessages := s.txGMessages ++ [pkt], pushers := s.pushers ++ [.signal] }
  | .qPush pkt =>
      { s with txQMessages := s.txQMessages ++ [pkt], pushers := s.pushers ++ [.signal] }
  | .signalQuota =>
      { s with
        txQuotaExceeded := false
        pushers := if s.txQMessages.isEmpty then s.pushers else s.pushers ++ [.signal] }
  | .push i =>
      match s.pushers[i]? with
      | some pusher => s.push i pusher
      | none => s
  | .transmit i choice =>
      match s.transmitters[i]? with
      | some routine => s.transmit i choice routine
      | none => s
  | .fire => if s.armed then { s with armed := false, tick := true } else s

/-- A connection in `Start`, with what was loaded into its queues; `gLoadList` and `qLoadList` have
signalled. -/
def new (txGMessages txQMessages : List α) : Tx α :=
  { txGMessages, txQMessages
    txQuotaExceeded := false
    txAvailable := true
    txRunning := false
    armed := false
    tick := false
    pushers := [.swap]
    transmitters := [] }

/-- The goroutine has decided to stop. -/
def Leaving : TxRoutine → Prop
  | .store | .flush false => True
  | _ => False

/-- The goroutine is going to look into a queue with a packet in it, or has just found one. -/
def Awake (s : Tx α) : TxRoutine → Prop
  | .gPopPacket _ | .qPopPacket _ _ | .encode _ _ | .qAvailable _ | .signal _ => True
  | .gAvailable _ => s.gAvailable = true
  | .loop _ | .select _ | .reset _ | .flush _ | .store => False

/-- With something to send and no push under way, the flag is set, and a transmitter has not decided
to stop and either is about to look into the queues or is going to be woken. -/
def Attended (s : Tx α) : Prop :=
  s.pushers = [] → s.pending = true →
    s.txRunning = true ∧ ∃ routine ∈ s.transmitters, ¬Leaving routine ∧
      (s.txAvailable = true ∨ s.Awake routine)

/-- The goroutine has missed something: it has decided to stop, or is going to unless it finds a
packet in the other queue. -/
def Blind (s : Tx α) (routine : TxRoutine) : Prop :=
  (Leaving routine ∧ s.pending = true) ∨
    ∃ case_, routine = .gAvailable case_ ∧ case_.final = true ∧ s.qAvailable = true

/-- The push has not asked yet whether a transmitter is running. -/
def Early (pusher : Pusher) : Prop := pusher = .signal ∨ pusher = .swap

/-- While a transmitter has missed something, the last push that is to ask whether a transmitter is
running does not ask. -/
def Timely (s : Tx α) : Op α → Prop
  | .push i => s.pushers[i]? = some .swap → ∀ routine ∈ s.transmitters, s.Blind routine →
      ∃ pusher ∈ replaceAt s.pushers i [], Early pusher
  | _ => True

/-- The push is going to start a transmitter. -/
def Starting (pusher : Pusher) : Prop := pusher = .wait ∨ pusher = .go

/-- What holds at all times if pushes come in time: who has missed something can count on a push that
is still to ask, the flag is set while there is something to send, somebody is going to look, and
the flag is right. -/
structure Inv (s : Tx α) : Prop where
  blind : ∀ routine ∈ s.transmitters, s.Blind routine → ∃ pusher ∈ s.pushers, Early pusher
  running : s.pending = true → s.txRunning = true ∨ ∃ pusher ∈ s.pushers, Early pusher
  awake : s.pending = true → .signal ∈ s.pushers ∨ s.txAvailable = true ∨
    ∃ routine ∈ s.transmitters, s.Awake routine
  alive : s.txRunning = true → (∃ pusher ∈ s.pushers, Starting pusher) ∨ s.transmitters ≠ []

section Inv

variable {s : Tx α}

theorem Awake.not_leaving {routine : TxRoutine} (awake : s.Awake routine) : ¬Leaving routine := by
  cases routine with
  | flush available => exact awake.elim
  | store => exact awake.elim
  | _ => exact id

theorem Inv.attended (inv : s.Inv) : s.Attended := by
  intro idle pending
  have nobody : ¬∃ pusher ∈ s.pushers, Early pusher := by
    rintro ⟨pusher, member, -⟩
    rw [idle] at member
    cases member
  have running := (inv.running pending).resolve_right nobody
  refine ⟨running, ?_⟩
  rcases inv.awake pending with signalling | available | ⟨routine, member, awake⟩
  · rw [idle] at signalling
    cases signalling
  · have present : s.transmitters ≠ [] := by
      refine (inv.alive running).resolve_left ?_
      rintro ⟨pusher, member, -⟩
      rw [idle] at member
      cases member
    rcases List.exists_mem_of_ne_nil _ present with ⟨routine, member⟩
    refine ⟨routine, member, fun leaving => ?_, .inl available⟩
    exact nobody (inv.blind routine member (.inl ⟨leaving, pending⟩))
  · exact ⟨routine, member, awake.not_leaving, .inr awake⟩

theorem inv_new (txGMessages txQMessages : List α) : (new txGMessages txQMessages).Inv where
  blind := nofun
  running := fun _ => .inr ⟨.swap, List.mem_singleton_self _, .inr rfl⟩
  awake := fun _ => .inr (.inl rfl)
  alive := nofun

/-- A push begins. -/
theorem Inv.begin {next : Tx α} (inv : s.Inv) (pushers : next.pushers = s.pushers ++ [.signal])
    (transmitters : next.transmitters = s.transmitters) (running : next.txRunning = s.txRunning) :
    next.Inv := by
  have early : ∃ pusher ∈ next.pushers, Early pusher :=
    ⟨.signal, by simp [pushers], .inl rfl⟩
  refine ⟨fun _ _ _ => early, fun _ => .inr early, fun _ => .inl (by simp [pushers]), ?_⟩
  rw [running, transmitters, pushers]
  intro set
  rcases inv.alive set with ⟨pusher, member, starting⟩ | present
  · exact .inl ⟨pusher, List.mem_append.mpr (.inl member), starting⟩
  · exact .inr present

/-- A push goes on, and who has missed something can count on another one. -/
theorem Inv.push (inv : s.Inv) {i : ℕ} {pusher : Pusher} (here : s.pushers[i]? = some pusher)
    (timely : pusher = .swap → ∀ routine ∈ s.transmitters, s.Blind routine →
      ∃ other ∈ replaceAt s.pushers i [], Early other) : (s.push i pusher).Inv := by
  have starting : ∀ next, ¬Starting pusher → (∃ other ∈ s.pushers, Starting other) →
      ∃ other ∈ replaceAt s.pushers i next, Starting other :=
    fun next unlike => exists_mem_replaceAt here next unlike
  have signalling : ∀ next, pusher ≠ .signal → .signal ∈ s.pushers →
      .signal ∈ replaceAt s.pushers i next :=
    fun next unlike member => mem_replaceAt_of_ne here next member unlike.symm
  have early : ∀ next, ¬Early pusher → (∃ other ∈ s.pushers, Early other) →
      ∃ other ∈ replaceAt s.pushers i next, Early other :=
    fun next unlike => exists_mem_replaceAt here next unlike
  cases pusher with
  | signal =>
      have still : ∃ pusher ∈ replaceAt s.pushers i [.swap], Early pusher :=
        ⟨.swap, mem_replaceAt_of_mem here (List.mem_singleton_self _), .inr rfl⟩
      refine ⟨fun _ _ _ => still, fun _ => .inr still, fun _ => .inr (.inl rfl), fun set => ?_⟩
      exact (inv.alive set).imp_left (starting _ (by simp [Starting]))
  | swap =>
      unfold Tx.push
      dsimp only
      split
      · rename_i set
        refine ⟨timely rfl, fun _ => .inl set, fun pending => ?_, fun _ => ?_⟩
        · exact (inv.awake pending).imp_left (signalling _ (by simp))
        · exact (inv.alive set).imp_left (starting _ (by simp [Starting]))
      · refine ⟨fun routine member blind => ?_, fun _ => .inl rfl, fun pending => ?_,
          fun _ => .inl ?_⟩
        · rcases timely rfl routine member blind with ⟨other, still, early⟩
          exact ⟨other, mem_replaceAt_of_nil still, early⟩
        · exact (inv.awake pending).imp_left (signalling _ (by simp))
        · exact ⟨.wait, mem_replaceAt_of_mem here (List.mem_singleton_self _), .inl rfl⟩
  | wait =>
      unfold Tx.push
      dsimp only
      split
      · refine ⟨fun routine member blind => ?_, fun pending => ?_, fun pending => ?_, fun _ => .inl ?_⟩
        · exact early _ (by simp [Early]) (inv.blind routine member blind)
        · exact (inv.running pending).imp_right (early _ (by simp [Early]))
        · exact (inv.awake pending).imp_left (signalling _ (by simp))
        · exact ⟨.go, mem_replaceAt_of_mem here (List.mem_singleton_self _), .inr rfl⟩
      · exact inv
  | go =>
      refine ⟨fun routine member blind => ?_, fun pending => ?_, fun pending => ?_, fun _ => .inr ?_⟩
      · rcases List.mem_append.mp member with old | new
        · exact early _ (by simp [Early]) (inv.blind routine old blind)
        · rw [List.mem_singleton.mp new] at blind
          rcases blind with ⟨leaving, -⟩ | ⟨case_, same, -⟩
          · exact leaving.elim
          · cases same
      · exact (inv.running pending).imp_right (early _ (by simp [Early]))
      · refine (inv.awake pending).imp (signalling _ (by simp)) (Or.imp_right ?_)
        rintro ⟨routine, member, awake⟩
        exact ⟨routine, List.mem_append.mpr (.inl member), awake⟩
      · simp [Tx.push]

/-- A transmitter goes on without more to send than before. What is to be shown is that it has not
missed anything itself, and that somebody still looks. -/
theorem Inv.moved {next : Tx α} (inv : s.Inv) {i : ℕ} {before : TxRoutine}
    (after : TxRoutine)
    (here : s.transmitters[i]? = some before) (pushers : next.pushers = s.pushers)
    (transmitters : next.transmitters = replaceAt s.transmitters i [after])
    (running : next.txRunning = s.txRunning)
    (pending : next.pending = true → s.pending = true)
    (qAvailable : next.qAvailable = true → s.qAvailable = true)
    (blind : next.Blind after → ∃ pusher ∈ s.pushers, Early pusher)
    (awake : next.pending = true → next.txAvailable = true ∨ next.Awake after ∨
      (next.txAvailable = s.txAvailable ∧ next.gAvailable = s.gAvailable ∧ ¬s.Awake before)) :
    next.Inv := by
  have present : after ∈ replaceAt s.transmitters i [after] :=
    mem_replaceAt_of_mem here (List.mem_singleton_self _)
  refine ⟨?_, ?_, ?_, ?_⟩
  · intro routine member missed
    rw [pushers]
    rw [transmitters] at member
    rcases mem_replaceAt member with new | old
    · rw [List.mem_singleton.mp new] at missed
      exact blind missed
    · refine inv.blind routine old ?_
      rcases missed with ⟨leaving, something⟩ | ⟨case_, same, final, available⟩
      · exact .inl ⟨leaving, pending something⟩
      · exact .inr ⟨case_, same, final, qAvailable available⟩
  · intro something
    rw [pushers, running]
    exact inv.running (pending something)
  · intro something
    rw [pushers, transmitters]
    rcases awake something with token | self | ⟨same, general, asleep⟩
    · exact .inr (.inl token)
    · exact .inr (.inr ⟨after, present, self⟩)
    · rw [same]
      refine (inv.awake (pending something)).imp_right (Or.imp_right fun others => ?_)
      rcases exists_mem_replaceAt here [after] asleep others with ⟨routine, member, found⟩
      refine ⟨routine, member, ?_⟩
      cases routine with
      | gAvailable case_ => exact general.trans found
      | _ => exact found
  · intro set
    rw [pushers, transmitters]
    rw [running] at set
    exact (inv.alive set).imp_right fun _ => List.ne_nil_of_mem present

theorem not_blind {routine : TxRoutine} (staying : ¬Leaving routine)
    (elsewhere : ∀ case_, routine ≠ .gAvailable case_) : ¬s.Blind routine := by
  rintro (⟨leaving, -⟩ | ⟨case_, same, -⟩)
  · exact staying leaving
  · exact elsewhere case_ same

/-- A case that ends without anything found stops the goroutine only if it is final. -/
theorem final_of_leaving {case_ : TxCase} (leaving : Leaving (case_.next false)) :
    case_.final = true := by
  cases case_ with
  | timer => rfl
  | available prevLen sendBuffers =>
      simp only [TxCase.next] at leaving
      split at leaving
      · exact leaving.elim
      · rename_i later
        split at leaving
        · rename_i many
          simp [TxCase.final, later, many]
        · exact leaving.elim

theorem not_leaving_next (case_ : TxCase) : ¬Leaving (case_.next true) := by
  cases case_ with
  | timer => exact id
  | available prevLen sendBuffers =>
      simp only [TxCase.next]
      split
      · exact id
      · split <;> exact id

theorem next_ne_gAvailable (available : Bool) (case_ other : TxCase) :
    case_.next available ≠ .gAvailable other := by
  cases case_ with
  | timer => cases available <;> nofun
  | available prevLen sendBuffers =>
      simp only [TxCase.next]
      split
      · nofun
      · split <;> nofun

/-- A goroutine looks for a packet of QoS 1 or 2. -/
theorem Inv.testQ (inv : s.Inv) {i : ℕ} {case_ : TxCase}
    (here : s.transmitters[i]? = some (.qAvailable case_)) (choice : TxChoice) :
    (s.transmit i choice (.qAvailable case_)).Inv := by
  cases found : s.qAvailable with
  | true =>
      refine inv.moved (.signal case_) here rfl (by simp [transmit, found]) rfl id id ?_
        fun _ => .inr (.inl trivial)
      exact fun missed => absurd missed (not_blind id nofun)
  | false =>
      refine inv.moved (.gAvailable case_) here rfl (by simp [transmit, found]) rfl id id ?_ ?_
      · rintro (⟨leaving, -⟩ | ⟨_, -, -, available⟩)
        · exact leaving.elim
        · change s.qAvailable = true at available
          rw [found] at available
          cases available
      · intro pending
        refine .inr (.inl ?_)
        change (s.gAvailable || s.qAvailable) = true at pending
        rw [found, Bool.or_false] at pending
        exact pending

/-- A goroutine looks for any other packet. -/
theorem Inv.testG (inv : s.Inv) {i : ℕ} {case_ : TxCase}
    (here : s.transmitters[i]? = some (.gAvailable case_)) (choice : TxChoice) :
    (s.transmit i choice (.gAvailable case_)).Inv := by
  cases found : s.gAvailable with
  | true =>
      refine inv.moved (.signal case_) here rfl (by simp [transmit, found]) rfl id id ?_
        fun _ => .inr (.inl trivial)
      exact fun missed => absurd missed (not_blind id nofun)
  | false =>
      refine inv.moved (case_.next false) here rfl (by simp [transmit, found]) rfl id id ?_ ?_
      · -- a packet that is there now came after this goroutine looked into its queue
        rintro (⟨leaving, pending⟩ | ⟨other, same, -⟩)
        · refine inv.blind _ (List.mem_of_getElem? here) (.inr ⟨case_, rfl, ?_, ?_⟩)
          · exact final_of_leaving leaving
          · change (s.gAvailable || s.qAvailable) = true at pending
            rw [found, Bool.false_or] at pending
            exact pending
        · exact absurd same (next_ne_gAvailable _ _ _)
      · refine fun _ => .inr (.inr ⟨rfl, rfl, ?_⟩)
        change ¬s.gAvailable = true
        rw [found]
        decide

/-- A goroutine takes packets from the queues. -/
theorem Inv.pop (inv : s.Inv) {i n : ℕ} (choice : TxChoice) :
    (s.transmitters[i]? = some (.gPopPacket n) → (s.transmit i choice (.gPopPacket n)).Inv) ∧
      ∀ packets, s.transmitters[i]? = some (.qPopPacket n packets) →
        (s.transmit i choice (.qPopPacket n packets)).Inv := by
  constructor
  · intro here
    refine inv.moved _ here rfl rfl rfl ?_ id (fun missed => absurd missed (not_blind id nofun))
      fun _ => .inr (.inl trivial)
    simp only [pending, gAvailable, Bool.or_eq_true]
    refine Or.imp_left fun more => ?_
    cases all : s.txGMessages with
    | nil => simp [transmit, all] at more
    | cons first rest => rfl
  · intro packets here
    unfold transmit
    dsimp only
    split
    · rename_i available
      refine inv.moved (.encode n (packets + 1)) here rfl rfl rfl ?_ (fun _ => available)
        (fun missed => absurd missed (not_blind id nofun)) fun _ => .inr (.inl trivial)
      intro _
      simp [pending, available]
    · exact inv.moved (.encode n packets) here rfl rfl rfl id id
        (fun missed => absurd missed (not_blind id nofun)) fun _ => .inr (.inl trivial)

/-- A goroutine that has decided to stop clears the flag. -/
theorem Inv.stores (inv : s.Inv) {i : ℕ} (here : s.transmitters[i]? = some .store)
    (choice : TxChoice) : (s.transmit i choice .store).Inv := by
  refine ⟨?_, ?_, ?_, nofun⟩
  · intro routine member missed
    rcases mem_replaceAt member with new | old
    · rw [List.mem_singleton.mp new] at missed
      exact absurd missed (not_blind id nofun)
    · exact inv.blind routine old missed
  · intro pending
    exact .inr (inv.blind .store (List.mem_of_getElem? here) (.inl ⟨trivial, pending⟩))
  · intro pending
    refine (inv.awake pending).imp_right (Or.imp_right fun others => ?_)
    exact exists_mem_replaceAt here _ id others

theorem Inv.transmit (inv : s.Inv) {i : ℕ} {routine : TxRoutine}
    (here : s.transmitters[i]? = some routine) (choice : TxChoice) :
    (s.transmit i choice routine).Inv := by
  cases routine with
  | loop n =>
      unfold Tx.transmit
      dsimp only
      split
      · exact inv.moved (.select n) here rfl rfl rfl id id
          (fun missed => absurd missed (not_blind id nofun)) fun _ => .inr (.inr ⟨rfl, rfl, id⟩)
      · rename_i clear
        refine ⟨fun routine member => ?_, inv.running, fun pending => ?_, fun set => absurd set clear⟩
        · rcases mem_replaceAt member with new | old
          · cases new
          · exact inv.blind routine old
        · exact (inv.awake pending).imp_right
            (Or.imp_right (exists_mem_replaceAt here _ id))
  | select n =>
      unfold Tx.transmit
      dsimp only
      split
      · split
        · exact inv.moved (.qAvailable .timer) here rfl rfl rfl id id
            (fun missed => absurd missed (not_blind id nofun)) fun _ => .inr (.inl trivial)
        · exact inv
      · split
        · exact inv.moved (.gPopPacket n) here rfl rfl rfl id id
            (fun missed => absurd missed (not_blind id nofun)) fun _ => .inr (.inl trivial)
        · exact inv
  | gPopPacket n => exact (inv.pop choice).1 here
  | qPopPacket n packets => exact (inv.pop choice).2 packets here
  | encode n packets =>
      exact inv.moved _ here rfl rfl rfl id id
        (fun missed => absurd missed (not_blind id nofun)) fun _ => .inr (.inl trivial)
  | qAvailable case_ => exact inv.testQ here choice
  | gAvailable case_ => exact inv.testG here choice
  | signal case_ =>
      exact inv.moved _ here rfl rfl rfl id id
        (fun missed => absurd missed (not_blind (not_leaving_next case_) (next_ne_gAvailable _ _)))
        fun _ => .inl rfl
  | reset n =>
      exact inv.moved (.loop n) here rfl rfl rfl id id
        (fun missed => absurd missed (not_blind id nofun)) fun _ => .inr (.inr ⟨rfl, rfl, id⟩)
  | flush available =>
      cases available with
      | true =>
          exact inv.moved (.loop 0) here rfl rfl rfl id id
            (fun missed => absurd missed (not_blind id nofun)) fun _ => .inr (.inr ⟨rfl, rfl, id⟩)
      | false =>
          refine inv.moved .store here rfl rfl rfl id id ?_ fun _ => .inr (.inr ⟨rfl, rfl, id⟩)
          rintro (⟨-, pending⟩ | ⟨case_, same, -⟩)
          · exact inv.blind _ (List.mem_of_getElem? here) (.inl ⟨trivial, pending⟩)
          · cases same
  | store => exact inv.stores here choice

theorem Inv.step (inv : s.Inv) {op : Op α} (timely : s.Timely op) : (s.step op).Inv := by
  cases op with
  | gPush pkt => exact inv.begin rfl rfl rfl
  | qPush pkt => exact inv.begin rfl rfl rfl
  | signalQuota =>
      cases empty : s.txQMessages.isEmpty with
      | false => exact inv.begin (by simp [Tx.step, empty]) rfl rfl
      | true =>
          -- without packets of QoS 1 or 2 the quota makes no difference
          have nothing : s.qAvailable = false := by simp [qAvailable, empty]
          have still : (s.step .signalQuota).qAvailable = false := by
            simp [Tx.step, qAvailable, empty]
          have same : (s.step .signalQuota).pending = s.pending := by
            rw [pending, pending, nothing, still]
            rfl
          have pushers : (s.step .signalQuota).pushers = s.pushers := by simp [Tx.step, empty]
          refine ⟨?_, ?_, ?_, ?_⟩
          · intro routine member missed
            rw [pushers]
            refine inv.blind routine member ?_
            rcases missed with ⟨leaving, something⟩ | ⟨case_, -, -, available⟩
            · exact .inl ⟨leaving, same ▸ something⟩
            · rw [still] at available
              cases available
          · rw [pushers, same]
            exact inv.running
          · rw [pushers, same]
            exact inv.awake
          · rw [pushers]
            exact inv.alive
  | push i =>
      simp only [Tx.step]
      cases here : s.pushers[i]? with
      | none => exact inv
      | some pusher =>
          refine inv.push here fun same => timely ?_
          rw [here, same]
  | transmit i choice =>
      simp only [Tx.step]
      cases here : s.transmitters[i]? with
      | none => exact inv
      | some routine => exact inv.transmit here choice
  | fire =>
      unfold Tx.step
      dsimp only
      split
      · exact ⟨inv.blind, inv.running, inv.awake, inv.alive⟩
      · exact inv

end Inv

/-- In every run, at every time, no packet is left unattended, if the last push that is to ask for a
transmitter does not ask while one is about to stop and has missed something. -/
theorem attended_run (txGMessages txQMessages : List α) (ops : List (Op α))
    (timely : Along step Timely (new txGMessages txQMessages) ops) (n : ℕ) :
    ((ops.take n).foldl step (new txGMessages txQMessages)).Attended := by
  have inv := timely.always Inv (fun _ _ inv fine => inv.step fine)
    (inv_new txGMessages txQMessages) n
  exact inv.attended

/-- A push comes while the first transmitter of a connection waits for its first packet. -/
def samplePush : List (Op ℕ) := [.push 0, .push 0, .push 0, .gPush 7, .push 0, .push 0]

theorem samplePush_attended :
    (samplePush.foldl step (new [] [])).pushers = [] ∧
      (samplePush.foldl step (new [] [])).pending = true ∧
      (samplePush.foldl step (new [] [])).Attended := by
  refine ⟨by decide, by decide, attended_run [] [] samplePush ?_ 6⟩
  refine ⟨nofun, nofun, nofun, trivial, nofun, fun _ routine member blind => ?_, trivial⟩
  rw [List.mem_singleton.mp member] at blind
  exact absurd blind (not_blind id nofun)

/-- The transmitter of a connection finds nothing to send, twice, and is going to clear the flag. A
push comes first, and takes the transmitter to be running. -/
def lateTransmit (tick : Bool) : Op ℕ := .transmit 0 ⟨tick, false, 0⟩

def latePush : List (Op ℕ) :=
  [.push 0, .push 0, .push 0] ++ List.replicate 9 (lateTransmit false) ++
    [.fire, lateTransmit true, lateTransmit true, lateTransmit true] ++
    [.gPush 7, .push 0, .push 0] ++ [lateTransmit false, lateTransmit false]

theorem latePush_unattended :
    (latePush.foldl step (new [] [])).txGMessages = [7] ∧
      (latePush.foldl step (new [] [])).transmitters = [] ∧
      ¬(latePush.foldl step (new [] [])).Attended := by
  refine ⟨by decide, by decide, fun attended => ?_⟩
  have running := (attended (by decide) (by decide)).1
  revert running
  decide

end Tx

end VolantMQ.Connection
