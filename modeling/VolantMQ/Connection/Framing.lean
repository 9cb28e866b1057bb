import Mathlib.Data.List.TakeDrop
import Mathlib.Data.List.TakeWhile
import VolantMQ.Connection.Receiver

/-!
# The two readers of frames

The first packet of a connection is read by `GetMessageBuffer` of `routines/misc.go`, one byte of the
header at a time and without a buffer; all later ones by `readPacket`. A frame is a byte for the
type, up to four bytes of the remaining length, and as many bytes as these announce.

Both readers stop when they have seen too many bytes of the remaining length. `GetMessageBuffer`
counts the byte for the type too and compares with a limit that leaves room for a fifth byte.
-/

namespace VolantMQ.Connection

open Lib Packet

/-- What a reader makes of a stream. -/
inductive Delimited where
  /-- The remaining length is too long. -/
  | rejected
  /-- The stream ends before the frame does. -/
  | incomplete
  | frame (bytes rest : Bytes)
  deriving DecidableEq, Repr

/-- The length bytes at the beginning of a stream that have the continuation bit. -/
def continued (stream : Bytes) : ℕ := (stream.tail.takeWhile fun byte => 0x80 ≤ byte).length

/-- Seven bits of each byte, the lowest first. -/
def remainingLength : Bytes → ℕ
  | [] => 0
  | byte :: field => byte.toNat % 128 + 128 * remainingLength field

/-- The number of bytes of the frame that begins the stream. -/
def frameSize (stream : Bytes) : ℕ :=
  1 + (continued stream + 1) + remainingLength (stream.tail.take (continued stream + 1))

/-- What a reader makes of a stream once it knows how long the frame is. -/
def cut (size : ℕ) (stream : Bytes) : Delimited :=
  if stream.length < size then .incomplete else .frame (stream.take size) (stream.drop size)

/-- The frame at the beginning of a stream, with a remaining length of up to `limit` bytes. -/
def delimit (limit : ℕ) (stream : Bytes) : Delimited :=
  if limit ≤ continued stream then .rejected
  else if stream.length < 1 + (continued stream + 1) then .incomplete
  else cut (frameSize stream) stream

section Stream

variable {stream : Bytes}

theorem cut_of_complete {buf rest : Bytes} (whole : buf ++ rest = stream) :
    cut buf.length stream = .frame buf rest := by
  rw [cut, ← whole, if_neg (by rw [List.length_append]; omega), List.take_left' rfl,
    List.drop_left' rfl]

theorem cut_of_ended {buf rest : Bytes} {l : ℕ} (whole : buf.take l ++ rest = stream)
    (short : l < buf.length) (nothing : rest = []) : cut buf.length stream = .incomplete := by
  rw [cut, if_pos]
  rw [← whole, nothing, List.append_nil, List.length_take]
  omega

theorem delimit_of_few {limit : ℕ} (few : continued stream < limit) :
    delimit limit stream = if stream.length < 1 + (continued stream + 1) then .incomplete
      else cut (frameSize stream) stream :=
  if_neg (by omega)

theorem delimit_of_short {limit : ℕ} (few : continued stream < limit)
    (short : stream.length < 1 + (continued stream + 1)) : delimit limit stream = .incomplete := by
  rw [delimit_of_few few, if_pos short]

theorem delimit_eq_cut {limit : ℕ} (few : continued stream < limit)
    (complete : 1 + (continued stream + 1) ≤ stream.length) :
    delimit limit stream = cut (frameSize stream) stream := by
  rw [delimit_of_few few, if_neg (by omega)]

theorem delimit_eq_rejected_iff {limit : ℕ} :
    delimit limit stream = .rejected ↔ limit ≤ continued stream := by
  by_cases few : continued stream < limit
  · refine iff_of_false ?_ (by omega)
    rw [delimit_of_few few, cut]
    split
    · simp
    · split <;> simp
  · exact iff_of_true (if_pos (by omega)) (by omega)

theorem continued_lt (present : stream ≠ []) :
    continued stream < stream.length := by
  have short := (List.takeWhile_sublist (l := stream.tail) fun byte : UInt8 =>
    decide (0x80 ≤ byte)).length_le
  have positive := List.length_pos_iff.mpr present
  rw [List.length_tail] at short
  rw [continued]
  omega

end Stream

theorem length_takeWhile_step {α : Type} {p : α → Bool} {n : ℕ} {l : List α} {d : α}
    (seen : n ≤ (l.takeWhile p).length) (inside : n < l.length) :
    (p (l.getD n d) = true → n + 1 ≤ (l.takeWhile p).length) ∧
      (p (l.getD n d) = false → (l.takeWhile p).length = n) := by
  induction l generalizing n with
  | nil => cases inside
  | cons x l ih =>
      cases n with
      | zero =>
          rw [List.getD_cons_zero]
          constructor
          · intro holds
            simp [holds]
          · intro fails
            simp [fails]
      | succ n =>
          rw [List.takeWhile_cons] at seen ⊢
          split at seen
          · rename_i first
            rw [if_pos first, List.getD_cons_succ, List.length_cons]
            rw [List.length_cons] at seen inside
            have rest := @ih n (by omega) (by omega)
            exact ⟨fun holds => Nat.succ_le_succ (rest.1 holds),
              fun fails => congrArg (· + 1) (rest.2 fails)⟩
          · cases seen

/-- The next length byte decides whether the remaining length goes on. -/
theorem continued_step {stream : Bytes} {n : ℕ} (seen : n ≤ continued stream)
    (inside : n + 1 < stream.length) :
    (0x80 ≤ stream.getD (n + 1) 0 → n + 1 ≤ continued stream) ∧
      (stream.getD (n + 1) 0 < 0x80 → continued stream = n) := by
  cases stream with
  | nil => cases inside
  | cons first rest =>
      rw [List.getD_cons_succ]
      have step := @length_takeWhile_step _ _ _ _ (0 : UInt8) seen (by
        rw [List.tail_cons]
        rw [List.length_cons] at inside
        omega)
      constructor
      · intro high
        exact step.1 (decide_eq_true high)
      · intro low
        exact step.2 (decide_eq_false (UInt8.not_le.mpr low))

theorem binaryUvarintLoop_remainingLength {more : Bytes} {last : UInt8}
    (goesOn : ∀ byte ∈ more, 0x80 ≤ byte) (ends : last < 0x80) {i x : ℕ}
    (short : i + more.length ≤ 8) (bound : x < 2 ^ (7 * i)) :
    binaryUvarintLoop (more ++ [last]) i x (7 * i) =
      (x + 2 ^ (7 * i) * remainingLength (more ++ [last]), (i : Int) + more.length + 1) := by
  -- what has been read so far does not overlap with the bits of the next byte
  have joined : ∀ {i x : ℕ} (b : ℕ), x < 2 ^ (7 * i) → x ||| b <<< (7 * i) = x + 2 ^ (7 * i) * b := by
    intro i x b small
    have disjoint := Nat.two_pow_add_eq_or_of_lt small b
    rw [Nat.shiftLeft_eq, Nat.mul_comm b, Nat.or_comm, ← disjoint, Nat.add_comm]
  induction more generalizing i x with
  | nil =>
      rw [UInt8.lt_iff_toNat_lt] at ends
      change last.toNat < 128 at ends
      simp only [List.nil_append, binaryUvarintLoop, remainingLength, List.length_nil]
      rw [if_pos (UInt8.lt_iff_toNat_lt.mpr ends), if_neg (by simp at short; omega), joined _ bound,
        Nat.mod_eq_of_lt ends]
      simp
  | cons byte more ih =>
      have high := goesOn byte List.mem_cons_self
      rw [List.length_cons] at short
      have low : (byte &&& 0x7f).toNat = byte.toNat % 128 := toNat_and_0x7f byte
      have grown : x + 2 ^ (7 * i) * (byte.toNat % 128) < 2 ^ (7 * (i + 1)) := by
        have digit : byte.toNat % 128 < 128 := Nat.mod_lt _ (by decide)
        calc x + 2 ^ (7 * i) * (byte.toNat % 128)
            < 2 ^ (7 * i) + 2 ^ (7 * i) * 127 :=
              Nat.add_lt_add_of_lt_of_le bound (Nat.mul_le_mul_left _ (by omega))
          _ = 2 ^ (7 * (i + 1)) := by
              rw [Nat.mul_add, Nat.pow_add]
              omega
      have rest := @ih (fun other member => goesOn other (List.mem_cons_of_mem _ member)) (i + 1) _
        (by omega) grown
      rw [List.cons_append, binaryUvarintLoop, if_neg (UInt8.not_lt.mpr high), joined _ bound, low,
        show 7 * i + 7 = 7 * (i + 1) by ring, rest, remainingLength]
      refine Prod.ext ?_ ?_
      · simp only
        rw [Nat.mul_add, Nat.pow_add]
        ring
      · simp only [List.length_cons]
        push_cast
        ring

/-- The bytes of a length field. -/
theorem take_continued {stream : Bytes} (complete : 1 + (continued stream + 1) ≤ stream.length) :
    ∃ more last, stream.tail.take (continued stream + 1) = more ++ [last] ∧
      more.length = continued stream ∧ (∀ byte ∈ more, 0x80 ≤ byte) ∧ last < 0x80 := by
  have whole := @List.takeWhile_append_dropWhile _ (fun byte : UInt8 => decide (0x80 ≤ byte))
    stream.tail
  have firstLow := @List.head?_dropWhile_not _ (fun byte : UInt8 => decide (0x80 ≤ byte))
    stream.tail
  cases rest : stream.tail.dropWhile fun byte : UInt8 => decide (0x80 ≤ byte) with
  | nil =>
      have length := congrArg List.length whole
      rw [rest, List.append_nil, List.length_tail] at length
      change continued stream = _ at length
      omega
  | cons last body =>
      rw [rest] at whole firstLow
      refine ⟨_, last, ?_, rfl, ?_, ?_⟩
      · have start := congrArg (List.take (continued stream + 1)) whole
        rw [← start, List.take_append, List.take_of_length_le (by rw [continued]; omega)]
        simp [continued]
      · intro byte member
        have high := List.mem_takeWhile_imp member
        exact of_decide_eq_true high
      · simpa using firstLow

/-- `binary.Uvarint` of a length field of up to nine bytes. -/
theorem binaryUvarint_field {stream : Bytes} (short : continued stream ≤ 8)
    (complete : 1 + (continued stream + 1) ≤ stream.length) :
    binaryUvarint (stream.tail.take (continued stream + 1)) =
      (remainingLength (stream.tail.take (continued stream + 1)),
        ((continued stream + 1 : ℕ) : Int)) := by
  rcases take_continued complete with ⟨more, last, field, count, goesOn, ends⟩
  have read := @binaryUvarintLoop_remainingLength more last goesOn ends 0 0 (by omega) (by decide)
  rw [field, binaryUvarint, read, count]
  simp

theorem remainingLength_lt (field : Bytes) : remainingLength field < 128 ^ field.length := by
  induction field with
  | nil => decide
  | cons byte field ih =>
      have digit : byte.toNat % 128 < 128 := Nat.mod_lt _ (by decide)
      rw [remainingLength, List.length_cons, Nat.pow_succ]
      omega

/-- What `GetMessageBuffer` comes to: it waits for data, returns the error of a read or its own
error for the remaining length, or returns the buffer. -/
inductive Buffered where
  | blocked
  | failed
  | rejected
  | message (buf : Bytes) (rest : Wire UInt8)

/-- The loop for the header, with what has been read so far. Each round reads one byte, so that
`reads` rounds are enough. -/
def readHeader : ℕ → Bytes → Wire UInt8 → Buffered
  | 0, buf, _ => if 5 < buf.length then .rejected else .blocked
  | reads + 1, buf, wire =>
      if 5 < buf.length then .rejected
      else
        match wire.read 1 with
        | .blocked => .blocked
        | .failed _ => .failed
        | .data b wire =>
            if 1 < (buf ++ b).length ∧ b.headD 0 < 0x80 then .message (buf ++ b) wire
            else readHeader reads (buf ++ b) wire

/-- The loop for the rest of the message. Each round reads one byte at least. -/
def readBody : ℕ → Bytes → ℕ → Wire UInt8 → Buffered
  | 0, buf, l, wire => if l < buf.length then .blocked else .message buf wire
  | reads + 1, buf, l, wire =>
      if l < buf.length then
        match wire.read (buf.length - l) with
        | .blocked => .blocked
        | .failed _ => .failed
        | .data piece wire => readBody reads (Rx.store buf l piece) (l + piece.length) wire
      else .message buf wire

/-- `GetMessageBuffer` of a network connection. -/
def getMessageBuffer (wire : Wire UInt8) : Buffered :=
  match readHeader 6 [] wire with
  | .message buf wire =>
      let (remLen, _) := binaryUvarint buf.tail
      readBody remLen (buf ++ List.replicate remLen 0) buf.length wire
  | other => other

def Buffered.outcome : Buffered → Delimited
  | .blocked | .failed => .incomplete
  | .rejected => .rejected
  | .message buf rest => .frame buf rest.front

section getMessageBuffer

variable {stream : Bytes}

/-- What the header loop has found out about the stream when it ends. -/
def HeaderOutcome (stream : Bytes) : Buffered → Prop
  | .blocked | .failed =>
      continued stream < 5 ∧ stream.length < 1 + (continued stream + 1)
  | .rejected => 5 ≤ continued stream
  | .message buf wire =>
      continued stream < 5 ∧ buf.length = 1 + (continued stream + 1) ∧ buf ++ wire.front = stream

theorem readHeader_spec {reads : ℕ} {buf : Bytes} {wire : Wire UInt8}
    (whole : buf ++ wire.front = stream) (count : buf.length + reads = 6)
    (seen : buf.length ≤ continued stream + 1) :
    HeaderOutcome stream (readHeader reads buf wire) := by
  induction reads generalizing buf wire with
  | zero =>
      rw [readHeader, if_pos (by omega)]
      change 5 ≤ _
      omega
  | succ reads ih =>
      have ended : wire.front = [] →
          continued stream < 5 ∧ stream.length < 1 + (continued stream + 1) := by
        intro nothing
        rw [nothing, List.append_nil] at whole
        subst whole
        refine ⟨?_, by omega⟩
        cases buf with
        | nil => decide
        | cons first rest =>
            have fewer := continued_lt (List.cons_ne_nil first rest)
            omega
      rw [readHeader, if_neg (by omega)]
      cases got : wire.read 1 with
      | blocked => exact ended (Wire.front_blocked got)
      | failed rest => exact ended (Wire.front_failed got)
      | data b rest =>
          rcases Wire.read_data (by decide) got with ⟨present, single, -⟩
          have positive := List.length_pos_iff.mpr present
          rcases List.length_eq_one_iff.mp (show b.length = 1 by omega) with ⟨byte, rfl⟩
          have front := Wire.front_data (by decide) got
          have whole' : (buf ++ [byte]) ++ rest.front = stream := by
            rw [← whole, front, List.append_assoc]
          have here : stream.getD buf.length 0 = byte := by
            rw [← whole', List.append_assoc]
            simp
          have inside : buf.length < stream.length := by
            rw [← whole']
            simp
          have step : 1 ≤ buf.length →
              (0x80 ≤ byte → buf.length ≤ continued stream) ∧
                (byte < 0x80 → continued stream = buf.length - 1) := by
            intro one
            have next := @continued_step stream (buf.length - 1) (by omega) (by omega)
            rwa [show buf.length - 1 + 1 = buf.length by omega, here] at next
          simp only [List.length_append, List.length_singleton, List.headD_cons]
          split
          · rename_i final
            have last := (step (by omega)).2 final.2
            refine ⟨by omega, ?_, whole'⟩
            rw [List.length_append, List.length_singleton]
            omega
          · rename_i goesOn
            apply ih whole'
            · rw [List.length_append, List.length_singleton]
              omega
            · rw [List.length_append, List.length_singleton]
              by_cases first : buf.length = 0
              · omega
              · have high : 0x80 ≤ byte := by
                  apply UInt8.not_lt.mp
                  exact fun low => goesOn ⟨by omega, low⟩
                have := (step (by omega)).1 high
                omega

/-- The message is complete if and only if the stream has enough bytes. -/
theorem readBody_spec {reads l : ℕ} {buf : Bytes} {wire : Wire UInt8}
    (whole : buf.take l ++ wire.front = stream) (within : l ≤ buf.length)
    (enough : buf.length - l ≤ reads) :
    (readBody reads buf l wire).outcome = cut buf.length stream := by
  have done : l = buf.length → (Buffered.message buf wire).outcome = cut buf.length stream := by
    intro complete
    rw [complete, List.take_length] at whole
    rw [cut_of_complete whole]
    rfl
  induction reads generalizing l buf wire with
  | zero =>
      rw [readBody, if_neg (by omega)]
      exact done (by omega)
  | succ reads ih =>
      rw [readBody]
      split
      · rename_i short
        cases got : wire.read (buf.length - l) with
        | blocked => rw [cut_of_ended whole short (Wire.front_blocked got)]; rfl
        | failed rest => rw [cut_of_ended whole short (Wire.front_failed got)]; rfl
        | data piece rest =>
            rcases Wire.read_data (by omega) got with ⟨present, fits, -⟩
            have positive := List.length_pos_iff.mpr present
            have room : l + piece.length ≤ buf.length := by omega
            have length := Rx.length_store room
            have whole' : (Rx.store buf l piece).take (l + piece.length) ++ rest.front = stream := by
              rw [Rx.take_store room, List.append_assoc, ← Wire.front_data (by omega) got, whole]
            have later := ih whole' (by omega) (by omega)
            rw [length] at later
            apply later
            intro complete
            rw [complete, ← length, List.take_length] at whole'
            rw [← length, cut_of_complete whole']
            rfl
      · exact done (by omega)

/-- `GetMessageBuffer` takes a remaining length of five bytes. -/
theorem outcome_getMessageBuffer (wire : Wire UInt8) :
    (getMessageBuffer wire).outcome = delimit 5 wire.front := by
  have header := @readHeader_spec wire.front 6 [] wire rfl rfl (Nat.zero_le _)
  unfold getMessageBuffer
  cases found : readHeader 6 [] wire with
  | blocked =>
      rw [found] at header
      exact (delimit_of_short header.1 header.2).symm
  | failed =>
      rw [found] at header
      exact (delimit_of_short header.1 header.2).symm
  | rejected =>
      rw [found] at header
      exact (if_pos header).symm
  | message buf rest =>
      rw [found] at header
      rcases header with ⟨few, length, whole⟩
      have complete : 1 + (continued wire.front + 1) ≤ wire.front.length := by
        have total := congrArg List.length whole
        rw [List.length_append] at total
        omega
      have field : buf.tail = wire.front.tail.take (continued wire.front + 1) := by
        have start : wire.front.take buf.length = buf := by
          rw [← whole, List.take_left' rfl]
        rw [← start, List.tail_take_eq_take_tail, length, Nat.add_sub_cancel_left]
      have value := binaryUvarint_field (by omega) complete
      simp only [field, value]
      have body := @readBody_spec wire.front
        (remainingLength (wire.front.tail.take (continued wire.front + 1))) buf.length
        (buf ++ List.replicate (remainingLength (wire.front.tail.take (continued wire.front + 1))) 0)
        rest (by rw [List.take_left' rfl, whole]) (by simp) (by simp)
      rw [body, delimit_eq_cut few complete, List.length_append, List.length_replicate, length,
        frameSize]

end getMessageBuffer

namespace Rx

/-- What `readPacket` has come to, unless it goes on. -/
def outcome? (s : Rx) : Option Delimited :=
  match s.phase with
  | .closed => none
  | .peek peekCount =>
      if 5 < peekCount then some .rejected
      else if s.unread.length < peekCount then
        match s.wire.read (bufferSize - s.unread.length) with
        | .data _ _ => none
        | .blocked | .failed _ => some .incomplete
      else none
  | .read offset =>
      if offset = s.rxRemaining then some (.frame s.rxRecv (s.unread ++ s.wire.front))
      else
        match bufferedRead bufferSize (s.rxRecv.length - offset) s.unread s.wire with
        | .data _ _ _ => none
        | .blocked | .failed _ => some .incomplete

/-- What `readPacket` comes to within some steps. -/
def outcomeWithin (c : RxConfig) : ℕ → Rx → Option Delimited
  | 0, s => s.outcome?
  | n + 1, s =>
      match s.outcome? with
      | some outcome => some outcome
      | none => outcomeWithin c n (s.step c)

/-- `readPacket` comes to this in the end. -/
def Ends (c : RxConfig) (s : Rx) (outcome : Delimited) : Prop :=
  ∃ enough, ∀ n, enough ≤ n → outcomeWithin c n s = some outcome

/-- A receiver between two packets, with what the last reads have left in the buffer. -/
def between (wire : Wire UInt8) (unread : Bytes)
    (returned : List (Bytes × Except PacketError (Packet.Message × ℕ))) : Rx :=
  { Rx.new wire with unread, returned }

/-- How far `readPacket` is with the stream. -/
structure Delimiting (stream : Bytes) (s : Rx) : Prop where
  sane : s.Sane
  whole : s.held ++ s.wire.front = stream
  alive : s.phase ≠ .closed
  peek : ∀ peekCount, s.phase = .peek peekCount →
    2 ≤ peekCount ∧ peekCount ≤ 6 ∧ peekCount ≤ continued stream + 2
  read : ∀ offset, s.phase = .read offset → continued stream < 4 ∧
    1 + (continued stream + 1) ≤ stream.length ∧ s.rxRecv.length = frameSize stream

section Delimiting

variable {c : RxConfig} {stream : Bytes} {s : Rx}

theorem delimiting_peek {peekCount : ℕ} (phase : s.phase = .peek peekCount)
    (empty : s.rxRecv = []) (remaining : s.rxRemaining = s.rxRecv.length)
    (whole : s.unread ++ s.wire.front = stream) (two : 2 ≤ peekCount) (six : peekCount ≤ 6)
    (far : peekCount ≤ continued stream + 2) : s.Delimiting stream where
  sane :=
    { remaining := remaining
      offset := by simp [phase]
      peek := fun _ _ => empty }
  whole := by
    rw [Rx.held, phase]
    exact whole
  alive := by simp [phase]
  peek := by
    intro other same
    rw [phase, Phase.peek.injEq] at same
    exact same ▸ ⟨two, six, far⟩
  read := by simp [phase]

theorem delimiting_read {offset : ℕ} (phase : s.phase = .read offset)
    (remaining : s.rxRemaining = s.rxRecv.length) (inside : offset ≤ s.rxRecv.length)
    (whole : s.rxRecv.take offset ++ (s.unread ++ s.wire.front) = stream)
    (few : continued stream < 4) (complete : 1 + (continued stream + 1) ≤ stream.length)
    (length : s.rxRecv.length = frameSize stream) : s.Delimiting stream where
  sane :=
    { remaining := remaining
      offset := by
        intro other same
        rw [phase, Phase.read.injEq] at same
        exact same ▸ inside
      peek := by simp [phase] }
  whole := by
    rw [Rx.held, phase]
    simp only [List.append_assoc]
    exact whole
  alive := by simp [phase]
  peek := by simp [phase]
  read := fun _ _ => ⟨few, complete, length⟩

theorem delimiting_between (wire : Wire UInt8) (unread : Bytes)
    (returned : List (Bytes × Except PacketError (Packet.Message × ℕ))) :
    (between wire unread returned).Delimiting (unread ++ wire.front) :=
  @delimiting_peek _ (between wire unread returned) 2 rfl rfl rfl rfl (le_refl _) (by decide)
    (Nat.le_add_left _ _)

/-- When `readPacket` has come to something, it is what the stream says. -/
theorem Delimiting.outcome_eq (delimiting : s.Delimiting stream) {outcome : Delimited}
    (ended : s.outcome? = some outcome) : outcome = delimit 4 stream := by
  have whole := delimiting.whole
  cases phase : s.phase with
  | closed => exact absurd phase delimiting.alive
  | peek peekCount =>
      rcases delimiting.peek peekCount phase with ⟨two, six, far⟩
      rw [Rx.held, phase] at whole
      simp only [outcome?, phase] at ended
      split at ended
      · rw [Option.some.injEq] at ended
        rw [delimit, if_pos (by omega), ended]
      · rename_i low
        split at ended
        · rename_i few
          have nothing : s.wire.front = [] ∧ outcome = .incomplete := by
            cases got : s.wire.read (bufferSize - s.unread.length) with
            | blocked => simp only [got] at ended; cases ended; exact ⟨Wire.front_blocked got, rfl⟩
            | failed rest => simp only [got] at ended; cases ended; exact ⟨Wire.front_failed got, rfl⟩
            | data piece rest => simp only [got] at ended; cases ended
          simp only [nothing.1, List.append_nil] at whole
          subst whole
          rw [nothing.2, delimit_of_short _ (by omega)]
          by_cases empty : s.unread = []
          · rw [empty]
            decide
          · have fewer := continued_lt empty
            omega
        · cases ended
  | read offset =>
      rcases delimiting.read offset phase with ⟨few, complete, length⟩
      have within := delimiting.sane.offset offset phase
      rw [Rx.held, phase] at whole
      simp only [List.append_assoc] at whole
      rw [delimit_eq_cut few complete, ← length]
      simp only [outcome?, phase] at ended
      rw [delimiting.sane.remaining] at ended
      split at ended
      · rename_i full
        rw [full, List.take_length] at whole
        rw [Option.some.injEq] at ended
        rw [cut_of_complete whole, ended]
      · rename_i short
        have nothing : s.unread ++ s.wire.front = [] ∧ outcome = .incomplete := by
          cases got : bufferedRead bufferSize (s.rxRecv.length - offset) s.unread s.wire with
          | blocked =>
              simp only [got] at ended
              cases ended
              rcases bufferedRead_blocked got with ⟨empty, cut⟩
              rw [empty, Wire.front, cut]
              exact ⟨rfl, rfl⟩
          | failed rest =>
              simp only [got] at ended
              cases ended
              rcases bufferedRead_failed got with ⟨empty, cut, -⟩
              rw [empty, Wire.front, cut]
              exact ⟨rfl, rfl⟩
          | data piece left rest => simp only [got] at ended; cases ended
        rw [nothing.2, cut_of_ended whole (by omega) nothing.1]

/-- The size limit is no obstacle to a frame. -/
theorem frameSize_le (few : continued stream < 4) : frameSize stream ≤ 268435460 := by
  have value := remainingLength_lt (stream.tail.take (continued stream + 1))
  have digits : 128 ^ (stream.tail.take (continued stream + 1)).length ≤ 128 ^ 4 := by
    apply Nat.pow_le_pow_right (by decide)
    exact (List.length_take_le _ _).trans (by omega)
  rw [frameSize]
  omega

theorem allocate_fits (s : Rx) (few : continued stream < 4)
    (complete : 1 + (continued stream + 1) ≤ stream.length)
    (unlimited : 268435460 ≤ c.MaxRxPacketSize.toNat) {header : Bytes}
    (field : header.tail = stream.tail.take (continued stream + 1)) :
    s.allocate c header = { s with
      rxRemaining := frameSize stream
      rxRecv := List.replicate (frameSize stream) 0
      phase := .read 0 } := by
  have value := binaryUvarint_field (by omega) complete
  have size : remainingLength (stream.tail.take (continued stream + 1)) + 1 +
      (continued stream + 1) = frameSize stream := by
    rw [frameSize]
    omega
  have fits := frameSize_le few
  simp only [allocate, field, value, Int.toNat_natCast, size, checkSize]
  rw [if_neg (by omega)]
  simp

theorem Delimiting.step_peek (delimiting : s.Delimiting stream)
    (unlimited : 268435460 ≤ c.MaxRxPacketSize.toNat) (goesOn : s.outcome? = none) {peekCount : ℕ}
    (phase : s.phase = .peek peekCount) :
    (s.step c).Delimiting stream ∧ (s.step c).effort < s.effort := by
  rcases delimiting.peek peekCount phase with ⟨two, six, far⟩
  have sane := delimiting.sane
  have whole := delimiting.whole
  rw [Rx.held, phase] at whole
  simp only at whole
  have effort : s.effort = 60 * s.wire.size + 30 * s.unread.length + (20 - peekCount) := by
    rw [Rx.effort, phase]
  simp only [outcome?, phase] at goesOn
  split at goesOn
  · cases goesOn
  · rename_i low
    rw [Rx.step, phase]
    simp only [if_neg low]
    split at goesOn
    · rename_i few
      rw [if_pos few]
      cases got : s.wire.read (bufferSize - s.unread.length) with
      | blocked => simp only [got] at goesOn; cases goesOn
      | failed rest => simp only [got] at goesOn; cases goesOn
      | data piece rest =>
          have space : 0 < bufferSize - s.unread.length := by
            rw [bufferSize]
            omega
          rcases Wire.read_data space got with ⟨present, -, smaller, -⟩
          have positive := List.length_pos_iff.mpr present
          refine ⟨delimiting_peek rfl (sane.peek _ phase) sane.remaining ?_ two six far, ?_⟩
          · simp only [List.append_assoc]
            rw [← Wire.front_data space got, whole]
          · rw [effort, Rx.effort]
            simp only [List.length_append]
            omega
    · rename_i enough
      rw [if_neg enough]
      have here : stream.getD (peekCount - 1) 0 = s.unread.getD (peekCount - 1) 0 := by
        rw [← whole, List.getD_append _ _ _ _ (by omega)]
      have inside : peekCount ≤ stream.length := by
        rw [← whole, List.length_append]
        omega
      have next := @continued_step stream (peekCount - 2) (by omega) (by omega)
      rw [show peekCount - 2 + 1 = peekCount - 1 by omega, here] at next
      split
      · rename_i high
        have longer := next.1 high
        refine ⟨delimiting_peek rfl (sane.peek _ phase) sane.remaining whole (by omega) (by omega)
          (by omega), ?_⟩
        · rw [effort, Rx.effort]
          simp only
          omega
      · rename_i low
        have last := next.2 (UInt8.not_le.mp low)
        have few : continued stream < 4 := by omega
        have complete : 1 + (continued stream + 1) ≤ stream.length := by omega
        have field : (s.unread.take peekCount).tail = stream.tail.take (continued stream + 1) := by
          have start : s.unread.take peekCount = stream.take peekCount := by
            rw [← whole, List.take_append_of_le_length (by omega)]
          rw [start, List.tail_take_eq_take_tail, show peekCount - 1 = continued stream + 1 by omega]
        have allocated := allocate_fits s few complete unlimited field
        rw [allocated]
        refine ⟨delimiting_read rfl (by simp) (Nat.zero_le _) whole few complete
          List.length_replicate, ?_⟩
        · rw [effort, Rx.effort]
          simp only [if_neg (show 0 ≠ frameSize stream by rw [frameSize]; omega)]
          omega

theorem Delimiting.step_read (delimiting : s.Delimiting stream) (goesOn : s.outcome? = none)
    {offset : ℕ} (phase : s.phase = .read offset) :
    (s.step c).Delimiting stream ∧ (s.step c).effort < s.effort := by
  rcases delimiting.read offset phase with ⟨few, complete, length⟩
  have inside := delimiting.sane.offset offset phase
  have remaining := delimiting.sane.remaining
  have whole := delimiting.whole
  rw [Rx.held, phase] at whole
  simp only [List.append_assoc] at whole
  simp only [outcome?, phase] at goesOn
  split at goesOn
  · cases goesOn
  · rename_i short
    have effort : s.effort = 60 * s.wire.size + 30 * s.unread.length + 1 := by
      rw [Rx.effort, phase]
      simp only [if_neg short]
    rw [Rx.step, phase]
    simp only [if_neg short]
    cases got : bufferedRead bufferSize (s.rxRecv.length - offset) s.unread s.wire with
    | blocked => simp only [got] at goesOn; cases goesOn
    | failed rest => simp only [got] at goesOn; cases goesOn
    | data piece left rest =>
        rcases bufferedRead_data (by decide) (by omega) got with
          ⟨present, fits, smaller, segment, segment', later, before, after, same⟩
        have positive := List.length_pos_iff.mpr present
        have room : offset + piece.length ≤ s.rxRecv.length := by omega
        have stored := length_store room
        refine ⟨delimiting_read rfl (by rw [stored]; exact remaining) (by rw [stored]; exact room) ?_
          few complete (stored.trans length), ?_⟩
        · simp only [take_store room, List.append_assoc]
          rw [← whole, Wire.front, Wire.front, before, after]
          exact congrArg _ same.symm
        · rw [effort, Rx.effort]
          simp only
          split <;> omega

/-- A step that does not end `readPacket` brings it closer to its end. -/
theorem Delimiting.step (delimiting : s.Delimiting stream)
    (unlimited : 268435460 ≤ c.MaxRxPacketSize.toNat) (goesOn : s.outcome? = none) :
    (s.step c).Delimiting stream ∧ (s.step c).effort < s.effort := by
  cases phase : s.phase with
  | closed => exact absurd phase delimiting.alive
  | peek peekCount => exact delimiting.step_peek unlimited goesOn phase
  | read offset => exact delimiting.step_read goesOn phase

/-- `readPacket` takes a remaining length of four bytes. -/
theorem Delimiting.ends (delimiting : s.Delimiting stream)
    (unlimited : 268435460 ≤ c.MaxRxPacketSize.toNat) : s.Ends c (delimit 4 stream) := by
  -- each step that goes on makes the remaining effort smaller
  induction effort : s.effort using Nat.strong_induction_on generalizing s with
  | _ e ih =>
      cases ended : s.outcome? with
      | some outcome =>
          refine ⟨0, fun n _ => ?_⟩
          rw [← delimiting.outcome_eq ended]
          cases n with
          | zero => exact ended
          | succ n => rw [outcomeWithin, ended]
      | none =>
          rcases delimiting.step unlimited ended with ⟨next, closer⟩
          rcases ih _ (effort ▸ closer) next rfl with ⟨enough, later⟩
          refine ⟨enough + 1, fun n atLeast => ?_⟩
          cases n with
          | zero => omega
          | succ n =>
              rw [outcomeWithin, ended]
              exact later n (by omega)

end Delimiting

end Rx

/-- Both readers find the frame at the beginning of the stream, however it is delivered. -/
def Alike (c : RxConfig) (wire : Wire UInt8) (s : Rx) (stream : Bytes) : Prop :=
  (getMessageBuffer wire).outcome = delimit 4 stream ∧ s.Ends c (delimit 4 stream)

/-- The readers find the same frame at the beginning of a stream, or reject it both, if and only if
it does not have exactly four length bytes with the continuation bit. -/
theorem readers_alike_iff {c : RxConfig} (unlimited : 268435460 ≤ c.MaxRxPacketSize.toNat)
    {wire rest : Wire UInt8} {unread : Bytes} (same : wire.front = unread ++ rest.front)
    (returned : List (Bytes × Except PacketError (Packet.Message × ℕ))) :
    Alike c wire (.between rest unread returned) wire.front ↔ continued wire.front ≠ 4 := by
  have reads := (Rx.delimiting_between rest unread returned).ends unlimited
  rw [← same] at reads
  rw [Alike, and_iff_left reads, outcome_getMessageBuffer]
  by_cases few : continued wire.front < 4
  · have below : delimit 5 wire.front = delimit 4 wire.front :=
      (delimit_of_few (by omega)).trans (delimit_of_few few).symm
    exact iff_of_true below (by omega)
  · have rejected : delimit 4 wire.front = .rejected := delimit_eq_rejected_iff.mpr (by omega)
    rw [rejected, delimit_eq_rejected_iff]
    omega

/-- A receiver without a size limit to speak of. -/
def noSizeLimit : RxConfig := ⟨ProtocolV311, 0xFFFFFFFF, fun _ _ => none⟩

/-- The same stream, a CONNECT with an empty body and something behind it, in one piece and byte by
byte. -/
theorem readers_alike_connect :
    Alike noSizeLimit [some [0x10, 0x00, 0xC0]] (.between [some [0x00], some [0xC0]] [0x10] [])
      [0x10, 0x00, 0xC0] :=
  (readers_alike_iff (by decide) (by decide) []).mpr (by decide)

/-- A remaining length of five bytes. -/
theorem fifthLengthByte_accepted :
    let stream : Bytes := [0x10, 0x80, 0x80, 0x80, 0x80, 0x00]
    ¬Alike noSizeLimit [some stream] (.new [some stream]) stream ∧
      (getMessageBuffer [some stream]).outcome = .frame stream [] ∧
      (Rx.new [some stream]).Ends noSizeLimit .rejected := by
  intro stream
  have accepted : (getMessageBuffer [some stream]).outcome = .frame stream [] := by
    rw [outcome_getMessageBuffer]
    decide
  refine ⟨fun alike => ?_, accepted, ?_⟩
  · rw [Alike, accepted] at alike
    exact absurd alike.1 (by decide)
  · exact (Rx.delimiting_between [some stream] [] []).ends (by decide)

end VolantMQ.Connection
