import VolantMQ.Connection.Lifecycle
import VolantMQ.Lib.Bufio
import VolantMQ.Packet.Discipline

/-!
# Reading packets off the socket

`readPacket` peeks at the fixed header until it knows how long the packet is, allocates `rxRecv` and
fills it. The fields `rxRecv` and `rxRemaining` survive a failed read, after which the netpoll
starts `rxRoutine` again; the buffered reader and the position in `rxRecv` do not. A read that fails
in the middle of a packet therefore loses what was read of it.
-/

namespace VolantMQ.Connection

open Lib Packet

/-- The loop of `binary.Uvarint`. -/
def binaryUvarintLoop : Bytes → ℕ → ℕ → ℕ → ℕ × Int
  | [], _, _, _ => (0, 0)
  | byte :: rest, i, x, s =>
      if byte < 0x80 then
        if 9 < i ∨ i = 9 ∧ 1 < byte then (0, -((i : Int) + 1))
        else (x ||| byte.toNat <<< s, (i : Int) + 1)
      else binaryUvarintLoop rest (i + 1) (x ||| (byte &&& 0x7f).toNat <<< s) (s + 7)

/-- `binary.Uvarint`: the value and the number of bytes. -/
def binaryUvarint (buf : Bytes) : ℕ × Int := binaryUvarintLoop buf 0 0 0

/-- The size of the buffer of `bufio.NewReader`. -/
def bufferSize : ℕ := 4096

/-- Where `readPacket` is. -/
inductive Phase where
  | peek (peekCount : ℕ)
  | read (offset : ℕ)
  /-- The receiver has ended with a reason code. -/
  | closed
  deriving DecidableEq, Repr

/-- What stays the same in a run: the version and the size limit of the connection, and what
`processIncoming` returns for each packet. -/
structure RxConfig where
  Version : ProtocolVersion
  MaxRxPacketSize : UInt32
  processIncoming : ℕ → Packet.Message → Option RxError

/-- The receiver with its socket. -/
structure Rx where
  wire : Wire UInt8
  /-- What the buffered reader has read and not handed out. -/
  unread : Bytes
  rxRecv : Bytes
  rxRemaining : ℕ
  phase : Phase
  /-- What `readPacket` has given to `Decode`, and what it has returned. -/
  returned : List (Bytes × Except PacketError (Packet.Message × ℕ))

namespace Rx

def close (s : Rx) : Rx := { s with phase := .closed }

/-- `readPacket` behind the fixed header, with the check of the packet size. -/
def checkSize (c : RxConfig) (s : Rx) : Rx :=
  if c.MaxRxPacketSize.toNat < s.rxRemaining then s.close
  else { s with phase := .read (s.rxRecv.length - s.rxRemaining) }

/-- The beginning of `readPacket`. -/
def readPacket (c : RxConfig) (s : Rx) : Rx :=
  if s.rxRecv.length = 0 then { s with phase := .peek 2 } else s.checkSize c

/-- `rxRoutine` is started again, with a new buffered reader. -/
def resume (c : RxConfig) (s : Rx) : Rx := ({ s with unread := [] } : Rx).readPacket c

/-- What `rxRoutine` does after an error. -/
def leave (c : RxConfig) (s : Rx) : RxError → Rx
  | .reason _ => s.close
  | .other => s.resume c

/-- The fixed header is complete: `rxRecv` is allocated for the whole packet. -/
def allocate (c : RxConfig) (s : Rx) (header : Bytes) : Rx :=
  let (remLen, m) := binaryUvarint header.tail
  let rxRemaining := remLen + 1 + m.toNat
  ({ s with rxRemaining, rxRecv := List.replicate rxRemaining 0 } : Rx).checkSize c

/-- The packet is complete: `readPacket` returns, and `rxRoutine` goes on. -/
def decode (c : RxConfig) (s : Rx) : Rx :=
  let result := Packet.decode c.Version s.rxRecv
  let k := s.returned.length
  let s := { s with returned := s.returned ++ [(s.rxRecv, result)], rxRecv := [], rxRemaining := 0 }
  match result with
  | .error e => s.leave c (.of e)
  | .ok (pkt, _) =>
      match c.processIncoming k pkt with
      | none => s.readPacket c
      | some err => s.leave c err

/-- `copy(s.rxRecv[offset:], piece)` -/
def store (rxRecv : Bytes) (offset : ℕ) (piece : Bytes) : Bytes :=
  rxRecv.take offset ++ piece ++ rxRecv.drop (offset + piece.length)

/-- The receiver goes on to the next read of the socket or of its buffer. Without anything to read
it stays as it is. -/
def step (c : RxConfig) (s : Rx) : Rx :=
  match s.phase with
  | .closed => s
  | .peek peekCount =>
      if 5 < peekCount then s.leave c (.reason CodeProtocolError)
      else if s.unread.length < peekCount then
        match s.wire.read (bufferSize - s.unread.length) with
        | .blocked => s
        | .failed wire => ({ s with wire } : Rx).leave c .other
        | .data piece wire => { s with wire, unread := s.unread ++ piece }
      else if 0x80 ≤ s.unread.getD (peekCount - 1) 0 then { s with phase := .peek (peekCount + 1) }
      else s.allocate c (s.unread.take peekCount)
  | .read offset =>
      if offset = s.rxRemaining then s.decode c
      else
        match bufferedRead bufferSize (s.rxRecv.length - offset) s.unread s.wire with
        | .blocked => s
        | .failed wire => ({ s with wire } : Rx).leave c .other
        | .data piece unread wire =>
            { s with
              wire, unread
              rxRecv := store s.rxRecv offset piece
              phase := .read (offset + piece.length) }

/-- A receiver that has not read anything. -/
def new (wire : Wire UInt8) : Rx :=
  { wire
    unread := []
    rxRecv := []
    rxRemaining := 0
    phase := .peek 2
    returned := [] }

/-- After some steps the receiver has nothing more to do, and `readPacket` has returned the decodings
of the frames, each from the bytes of its frame. -/
def Reassembles (c : RxConfig) (wire : Wire UInt8) (frames : List Frame) : Prop :=
  ∃ n, ((step c)^[n] (new wire)).step c = (step c)^[n] (new wire) ∧
    ((step c)^[n] (new wire)).returned =
      frames.map fun f => (f.bytes, Packet.decode c.Version f.bytes)

/-- A frame that the receiver has no objections to. -/
structure Valid (c : RxConfig) (f : Frame) : Prop where
  short : f.lengthField.length ≤ 4
  fits : f.bytes.length ≤ c.MaxRxPacketSize.toNat
  accepted : ∃ pkt n, Packet.decode c.Version f.bytes = .ok (pkt, n) ∧
    ∀ k, c.processIncoming k pkt = none

/-- The bytes in the hands of `readPacket`, and behind them those in the buffer. -/
def held (s : Rx) : Bytes :=
  match s.phase with
  | .read offset => s.rxRecv.take offset ++ s.unread
  | .peek _ | .closed => s.unread

/-- The fields fit together. -/
structure Sane (s : Rx) : Prop where
  remaining : s.rxRemaining = s.rxRecv.length
  offset : ∀ offset, s.phase = .read offset → offset ≤ s.rxRecv.length
  peek : ∀ peekCount, s.phase = .peek peekCount → s.rxRecv = []

/-- What a step does to the data: it moves some of it along, fails with the loss of what was held,
or cuts a packet off, perhaps with the loss of what was buffered behind it. -/
inductive Moves (c : RxConfig) (s next : Rx) : Prop where
  | carries (segment segment' : Bytes) (later : List Bytes) (returned : next.returned = s.returned)
      (before : s.wire.segments = segment :: later) (after : next.wire.segments = segment' :: later)
      (same : s.held ++ segment = next.held ++ segment')
  | fails (returned : next.returned = s.returned)
      (failed : s.wire.segments = [] :: next.wire.segments) (lost : next.held = [])
  | cuts (packet : Bytes)
      (returned : next.returned = s.returned ++ [(packet, Packet.decode c.Version packet)])
      (wire : next.wire = s.wire) (held : s.held = packet ++ s.unread)
      (kept : next.held = s.unread ∨ next.held = [])

section Step

variable {c : RxConfig} {s : Rx}

theorem sane_new (wire : Wire UInt8) : (new wire).Sane := ⟨rfl, nofun, fun _ _ => rfl⟩

/-- The beginning of `readPacket` puts the position at the beginning of `rxRecv`. -/
theorem readPacket_spec (remaining : s.rxRemaining = s.rxRecv.length) :
    (s.readPacket c).Sane ∧ (s.readPacket c).held = s.unread ∧
      (s.readPacket c).wire = s.wire ∧ (s.readPacket c).returned = s.returned := by
  unfold readPacket checkSize
  split
  · rename_i empty
    refine ⟨⟨remaining, nofun, fun _ _ => List.length_eq_zero_iff.mp empty⟩, rfl, rfl, rfl⟩
  · split
    · exact ⟨⟨remaining, nofun, nofun⟩, rfl, rfl, rfl⟩
    · refine ⟨⟨remaining, ?_, nofun⟩, ?_, rfl, rfl⟩
      · rintro offset ⟨⟩
        exact Nat.sub_le _ _
      · simp [held, remaining]

theorem leave_spec (remaining : s.rxRemaining = s.rxRecv.length) (err : RxError) :
    (s.leave c err).Sane ∧ ((s.leave c err).held = s.unread ∨ (s.leave c err).held = []) ∧
      (s.leave c err).wire = s.wire ∧ (s.leave c err).returned = s.returned := by
  cases err with
  | reason code => exact ⟨⟨remaining, nofun, nofun⟩, .inl rfl, rfl, rfl⟩
  | other =>
      have again := @readPacket_spec c { s with unread := [] } remaining
      exact ⟨again.1, .inr again.2.1, again.2.2⟩

theorem length_store {rxRecv piece : Bytes} {offset : ℕ}
    (fits : offset + piece.length ≤ rxRecv.length) :
    (store rxRecv offset piece).length = rxRecv.length := by
  simp only [store, List.length_append, List.length_take, List.length_drop]
  omega

theorem take_store {rxRecv piece : Bytes} {offset : ℕ}
    (fits : offset + piece.length ≤ rxRecv.length) :
    (store rxRecv offset piece).take (offset + piece.length) = rxRecv.take offset ++ piece := by
  have whole : (rxRecv.take offset ++ piece).length = offset + piece.length := by
    rw [List.length_append, List.length_take]
    omega
  rw [store, List.take_append_of_le_length (by omega), List.take_of_length_le (by omega)]

theorem decode_spec (c : RxConfig) (s : Rx) :
    (s.decode c).Sane ∧ ((s.decode c).held = s.unread ∨ (s.decode c).held = []) ∧
      (s.decode c).wire = s.wire ∧
      (s.decode c).returned = s.returned ++ [(s.rxRecv, Packet.decode c.Version s.rxRecv)] := by
  unfold decode
  dsimp only
  split
  · exact leave_spec rfl _
  · split
    · have begun := @readPacket_spec c { s with
        returned := s.returned ++ [(s.rxRecv, Packet.decode c.Version s.rxRecv)]
        rxRecv := []
        rxRemaining := 0 } rfl
      exact ⟨begun.1, .inl begun.2.1, begun.2.2⟩
    · exact leave_spec rfl _

/-- A read that failed. -/
theorem moves_failed {rest : Wire UInt8} (remaining : s.rxRemaining = s.rxRecv.length)
    (failed : s.wire.segments = [] :: rest.segments) :
    (({ s with wire := rest } : Rx).leave c .other).Sane ∧
      s.Moves c (({ s with wire := rest } : Rx).leave c .other) := by
  have again := @readPacket_spec c { s with wire := rest, unread := [] } remaining
  refine ⟨again.1, .fails again.2.2.2 ?_ again.2.1⟩
  rw [failed]
  exact congrArg _ (congrArg Wire.segments again.2.2.1).symm

/-- A step that does not touch the wire. -/
theorem moves_same {next : Rx} (wire : next.wire = s.wire) (returned : next.returned = s.returned)
    (held : s.held = next.held) : s.Moves c next := by
  rcases s.wire.exists_segments with ⟨segment, later, cut⟩
  exact .carries segment segment later returned cut (wire ▸ cut) (by rw [held])

theorem moves_peek {peekCount : ℕ} (sane : s.Sane) (phase : s.phase = .peek peekCount) :
    (s.step c).Sane ∧ s.Moves c (s.step c) := by
  have held : s.held = s.unread := by rw [Rx.held, phase]
  unfold step
  simp only [phase]
  split
  · exact ⟨⟨sane.remaining, nofun, nofun⟩, moves_same rfl rfl held⟩
  · rename_i low
    split
    · rename_i few
      cases got : s.wire.read (bufferSize - s.unread.length) with
      | blocked => exact ⟨sane, moves_same rfl rfl rfl⟩
      | failed rest => exact moves_failed sane.remaining (Wire.read_failed got).1
      | data piece rest =>
          have space : 0 < bufferSize - s.unread.length := by
            rw [bufferSize]
            omega
          rcases Wire.read_data space got with ⟨-, -, -, segment, later, after, before⟩
          refine ⟨⟨sane.remaining, nofun, fun _ _ => sane.peek _ phase⟩,
            .carries _ segment later rfl before after ?_⟩
          rw [held, Rx.held]
          simp only [List.append_assoc]
    · split
      · exact ⟨⟨sane.remaining, nofun, fun _ _ => sane.peek _ phase⟩, moves_same rfl rfl held⟩
      · rename_i enough _
        -- `rxRecv` is not empty, so `readPacket` would go on in the same way
        have same : ∀ header, s.allocate c header = ({ s with
            rxRemaining := (binaryUvarint header.tail).1 + 1 + (binaryUvarint header.tail).2.toNat
            rxRecv := List.replicate ((binaryUvarint header.tail).1 + 1 +
              (binaryUvarint header.tail).2.toNat) 0 } : Rx).readPacket c := by
          intro header
          rw [readPacket, if_neg (by simp only [List.length_replicate]; omega)]
          rfl
        have begun := @readPacket_spec c { s with
          rxRemaining := (binaryUvarint (s.unread.take peekCount).tail).1 + 1 +
            (binaryUvarint (s.unread.take peekCount).tail).2.toNat
          rxRecv := List.replicate ((binaryUvarint (s.unread.take peekCount).tail).1 + 1 +
            (binaryUvarint (s.unread.take peekCount).tail).2.toNat) 0 } (by simp)
        rw [same]
        exact ⟨begun.1, moves_same begun.2.2.1 begun.2.2.2 (held.trans begun.2.1.symm)⟩

theorem moves_read {offset : ℕ} (sane : s.Sane) (phase : s.phase = .read offset) :
    (s.step c).Sane ∧ s.Moves c (s.step c) := by
  have held : s.held = s.rxRecv.take offset ++ s.unread := by rw [Rx.held, phase]
  have inside := sane.offset offset phase
  unfold step
  simp only [phase]
  split
  · rename_i complete
    rcases decode_spec c s with ⟨next, kept, wire, returned⟩
    refine ⟨next, .cuts s.rxRecv returned wire ?_ kept⟩
    rw [held, complete, sane.remaining, List.take_length]
  · rename_i incomplete
    rw [sane.remaining] at incomplete
    cases got : bufferedRead bufferSize (s.rxRecv.length - offset) s.unread s.wire with
    | blocked => exact ⟨sane, moves_same rfl rfl rfl⟩
    | failed rest => exact moves_failed sane.remaining (bufferedRead_failed got).2.1
    | data piece left rest =>
        rcases bufferedRead_data (by decide) (by omega) got with
          ⟨-, fits, -, segment, segment', later, before, after, same⟩
        have room : offset + piece.length ≤ s.rxRecv.length := by omega
        refine ⟨⟨?_, ?_, nofun⟩, .carries segment segment' later rfl before after ?_⟩
        · rw [length_store room]
          exact sane.remaining
        · rintro _ ⟨⟩
          rw [length_store room]
          exact room
        · rw [held, List.append_assoc, same, Rx.held]
          simp only [take_store room, List.append_assoc]

theorem moves_step (sane : s.Sane) : (s.step c).Sane ∧ s.Moves c (s.step c) := by
  cases phase : s.phase with
  | peek peekCount => exact moves_peek sane phase
  | read offset => exact moves_read sane phase
  | closed =>
      have stays : s.step c = s := by rw [step, phase]
      rw [stays]
      exact ⟨sane, moves_same rfl rfl rfl⟩

end Step

/-- The number of bytes that were returned, are held or are still to come. -/
def total (s : Rx) : ℕ :=
  (s.returned.map fun entry => entry.1.length).sum + s.held.length + s.wire.bytes.length

section Total

variable {c : RxConfig} {s next : Rx}

theorem Moves.total_le (moves : s.Moves c next) : next.total ≤ s.total := by
  cases moves with
  | carries segment segment' later returned before after same =>
      have lengths := congrArg List.length same
      simp only [List.length_append] at lengths
      rw [total, total, returned, Wire.bytes, Wire.bytes, before, after, List.flatten_cons,
        List.flatten_cons, List.length_append, List.length_append]
      omega
  | fails returned failed lost =>
      rw [total, total, returned, Wire.bytes, Wire.bytes, failed, lost, List.flatten_cons]
      simp
  | cuts packet returned wire held kept =>
      have shorter : next.held.length ≤ s.unread.length := by
        rcases kept with same | none
        · rw [same]
        · rw [none]
          exact Nat.zero_le _
      rw [total, total, returned, wire, held, List.map_append, List.sum_append, List.length_append]
      simp only [List.map_cons, List.map_nil, List.sum_cons, List.sum_nil]
      omega

theorem total_iterate_le (sane : s.Sane) (n : ℕ) : ((step c)^[n] s).total ≤ s.total := by
  induction n generalizing s with
  | zero => exact Nat.le_refl _
  | succ n ih =>
      have step := @moves_step c s sane
      exact (ih step.1).trans step.2.total_le

/-- A step that loses nothing agrees with every way to cut the data from there on. -/
theorem Moves.aligned (moves : s.Moves c next) (kept : next.total = s.total)
    {blocks : List Bytes} {more : List (Bytes × Except PacketError (Packet.Message × ℕ))}
    (aligned : Aligned next.held next.wire blocks) (known : more.map Prod.fst = blocks) :
    ∃ new, next.returned ++ more = s.returned ++ new ∧
      Aligned s.held s.wire (new.map Prod.fst) := by
  cases moves with
  | carries segment segment' later returned before after same =>
      refine ⟨more, by rw [returned], ?_⟩
      rw [known]
      exact (aligned_congr before after same).mpr aligned
  | fails returned failed lost =>
      have nothing : s.held = [] := by
        rw [total, total, returned, Wire.bytes, Wire.bytes, failed, lost, List.flatten_cons] at kept
        simp only [List.length_nil, List.nil_append] at kept
        exact List.length_eq_zero_iff.mp (by omega)
      refine ⟨more, by rw [returned], ?_⟩
      rw [known, nothing]
      rw [lost] at aligned
      exact (aligned_failed failed).mpr aligned
  | cuts packet returned wire held behind =>
      have all : next.held = s.unread := by
        rcases behind with same | none
        · exact same
        · rw [total, total, returned, wire, held, none, List.map_append, List.sum_append,
            List.length_append] at kept
          simp only [List.map_cons, List.map_nil, List.sum_cons, List.sum_nil,
            List.length_nil] at kept
          rw [none]
          exact (List.length_eq_zero_iff.mp (by omega)).symm
      refine ⟨(packet, Packet.decode c.Version packet) :: more, by rw [returned]; simp, ?_⟩
      rw [List.map_cons, known, held, ← all, ← wire]
      exact aligned.cons packet

/-- In a run that loses nothing and leaves nothing behind, reads only fail between packets. -/
theorem aligned_of_total (sane : s.Sane) (n : ℕ) (kept : ((step c)^[n] s).total = s.total)
    (empty : ((step c)^[n] s).held = []) (ended : ((step c)^[n] s).wire.bytes = []) :
    ∃ new, ((step c)^[n] s).returned = s.returned ++ new ∧
      Aligned s.held s.wire (new.map Prod.fst) := by
  induction n generalizing s with
  | zero =>
      refine ⟨[], by simp, ?_⟩
      change s.held = [] at empty
      rw [empty]
      exact aligned_nil ended
  | succ n ih =>
      rw [Function.iterate_succ_apply] at kept empty ended ⊢
      rcases @moves_step c s sane with ⟨next, moves⟩
      have later := @total_iterate_le c _ next n
      have here := moves.total_le
      rcases ih next (by omega) empty ended with ⟨more, returned, aligned⟩
      rw [returned]
      exact moves.aligned (by omega) aligned rfl

end Total

end Rx

section Header

/-- Only the last byte of a length field has no continuation bit. -/
theorem continues_iff {field : Bytes} {i : ℕ} {x : UInt32} {s : ℕ}
    (ends : (uvarintLoop field i x s).2 = i + field.length) (present : field ≠ []) {j : ℕ}
    (inside : j < field.length) : 0x80 ≤ field.getD j 0 ↔ j + 1 < field.length := by
  induction field generalizing i x s j with
  | nil => exact absurd rfl present
  | cons byte rest ih =>
      simp only [uvarintLoop, List.length_cons] at ends inside ⊢
      split at ends
      · rename_i final
        have last : rest.length = 0 := by
          split at ends <;> simp only at ends <;> omega
        have first : j = 0 := by omega
        subst first
        rw [List.getD_cons_zero]
        constructor
        · intro high
          exact absurd final (UInt8.not_lt.mpr high)
        · omega
      · rename_i high
        have more : rest ≠ [] := by
          rintro rfl
          simp only [uvarintLoop, List.length_nil] at ends
          omega
        cases j with
        | zero =>
            rw [List.getD_cons_zero]
            have positive := List.length_pos_iff.mpr more
            exact ⟨fun _ => by omega, fun _ => UInt8.not_lt.mp high⟩
        | succ j =>
            rw [List.getD_cons_succ, ih (by rw [ends]; push_cast; ring) more (by omega)]
            omega

theorem toNat_or_shl32_small (x : UInt32) {byte : UInt8} (small : byte.toNat < 128) {i : ℕ}
    (low : i ≤ 3) : (x ||| shl32 byte (7 * i)).toNat = x.toNat ||| byte.toNat <<< (7 * i) := by
  have bound : byte.toNat <<< (7 * i) < 2 ^ 32 := by
    rw [Nat.shiftLeft_eq]
    calc byte.toNat * 2 ^ (7 * i) ≤ 127 * 2 ^ 21 :=
          Nat.mul_le_mul (by omega) (Nat.pow_le_pow_right (by decide) (by omega))
      _ < 2 ^ 32 := by decide
  rw [UInt32.toNat_or, shl32, UInt32.toNat_ofNat', Nat.mod_eq_of_lt bound]

/-- The two readers of variable-length integers agree on four bytes. -/
theorem binaryUvarintLoop_eq {field : Bytes} {i : ℕ} (x : UInt32) (short : i + field.length ≤ 4) :
    binaryUvarintLoop field i x.toNat (7 * i) =
      ((uvarintLoop field i x (7 * i)).1.toNat, (uvarintLoop field i x (7 * i)).2) := by
  induction field generalizing i x with
  | nil => rfl
  | cons byte rest ih =>
      rw [List.length_cons] at short
      simp only [binaryUvarintLoop, uvarintLoop]
      split
      · rename_i final
        have small : byte.toNat < 128 := by simpa [UInt8.lt_iff_toNat_lt] using final
        rw [if_neg (by omega), if_neg (by omega), toNat_or_shl32_small x small (by omega)]
      · have small : (byte &&& 0x7f).toNat < 128 := by
          rw [toNat_and_0x7f]
          omega
        rw [← toNat_or_shl32_small x small (by omega : i ≤ 3)]
        exact ih _ (by omega)

theorem binaryUvarint_lengthField {f : Frame} (short : f.lengthField.length ≤ 4) :
    binaryUvarint f.lengthField = (f.body.length, (f.lengthField.length : Int)) := by
  have same := @binaryUvarintLoop_eq f.lengthField 0 0 (by omega)
  change binaryUvarint f.lengthField = ((uvarint f.lengthField).1.toNat, _) at same
  rw [same, f.announces]
  exact congrArg _ f.ends

end Header

namespace Rx

/-- How far the receiver is with the frames to come. -/
inductive Reading (s : Rx) : List Frame → Prop
  | peek (frames : List Frame) (peekCount : ℕ) (phase : s.phase = .peek peekCount)
      (two : 2 ≤ peekCount) (five : peekCount ≤ 5)
      (within : ∀ f ∈ frames.head?, peekCount ≤ 1 + f.lengthField.length) : Reading s frames
  | read (f : Frame) (frames : List Frame) (offset : ℕ) (phase : s.phase = .read offset)
      (length : s.rxRecv.length = f.bytes.length) (begun : s.held ≠ []) : Reading s (f :: frames)

/-- What holds while only whole packets come between failed reads. -/
structure Progress (c : RxConfig) (frames : List Frame) (s : Rx) (rest : List Frame) : Prop where
  sane : s.Sane
  valid : ∀ f ∈ rest, Valid c f
  returned : frames.map (fun f => (f.bytes, Packet.decode c.Version f.bytes)) =
    s.returned ++ rest.map fun f => (f.bytes, Packet.decode c.Version f.bytes)
  aligned : Aligned s.held s.wire (rest.map Frame.bytes)
  reading : s.Reading rest

/-- A bound on the number of steps. -/
def effort (s : Rx) : ℕ :=
  60 * s.wire.size + 30 * s.unread.length +
    match s.phase with
    | .peek peekCount => 20 - peekCount
    | .read offset => if offset = s.rxRemaining then 25 else 1
    | .closed => 0

/-- Either the receiver is done, or it goes on and comes closer to its end. -/
def Advances (c : RxConfig) (frames : List Frame) (s : Rx) (rest : List Frame) : Prop :=
  (s.step c = s ∧ rest = []) ∨
    ∃ rest', Progress c frames (s.step c) rest' ∧ (s.step c).effort < s.effort

section Progress

variable {c : RxConfig} {frames rest : List Frame} {s : Rx}

theorem bytes_ne_nil (f : Frame) : f.bytes ≠ [] := by simp [Frame.bytes]

theorem two_le_header (f : Frame) : 2 ≤ 1 + f.lengthField.length := by
  have positive := List.length_pos_iff.mpr f.present
  omega

/-- A receiver at the beginning of a packet. -/
theorem reading_new (phase : s.phase = .peek 2) : s.Reading rest :=
  .peek rest 2 phase (le_refl _) (by decide) fun f _ => two_le_header f

/-- While a header is incomplete, data that ends there is empty. -/
theorem unread_eq_nil {peekCount : ℕ} (aligned : Aligned s.unread s.wire (rest.map Frame.bytes))
    (within : ∀ f ∈ rest.head?, peekCount ≤ 1 + f.lengthField.length)
    (few : s.unread.length < peekCount) {later : List Bytes}
    (ends : s.wire.segments = [] :: later) : s.unread = [] := by
  by_contra present
  rcases aligned.complete present ends with ⟨block, others, same, whole⟩
  cases rest with
  | nil => cases same
  | cons f rest =>
      rw [List.map_cons, List.cons.injEq] at same
      have header := within f rfl
      rw [← same.1, f.length_bytes] at whole
      omega

/-- The header that was peeked at is that of the first frame. -/
theorem peeked {peekCount : ℕ} (aligned : Aligned s.unread s.wire (rest.map Frame.bytes))
    (two : 2 ≤ peekCount) (within : ∀ f ∈ rest.head?, peekCount ≤ 1 + f.lengthField.length)
    (enough : peekCount ≤ s.unread.length) :
    ∃ f rest', rest = f :: rest' ∧ peekCount ≤ 1 + f.lengthField.length ∧
      s.unread.take peekCount = f.first :: f.lengthField.take (peekCount - 1) := by
  have present : s.unread ≠ [] := List.length_pos_iff.mp (by omega)
  rcases aligned.head present with ⟨block, others, segment, later, more, same, -, flat⟩
  cases rest with
  | nil => cases same
  | cons f rest =>
      rw [List.map_cons, List.cons.injEq] at same
      have header := within f rfl
      refine ⟨f, rest, rfl, header, ?_⟩
      have start := congrArg (List.take peekCount) flat
      rw [List.take_append_of_le_length enough, ← same.1,
        List.take_append_of_le_length (by rw [f.length_bytes]; omega)] at start
      rw [start, Frame.bytes]
      cases peekCount with
      | zero => omega
      | succ k =>
          rw [List.take_succ_cons, List.take_append_of_le_length (by omega), Nat.add_sub_cancel]

/-- The header needs more bytes. -/
theorem advances_fill (progress : Progress c frames s rest) {peekCount : ℕ}
    (phase : s.phase = .peek peekCount) (two : 2 ≤ peekCount) (five : peekCount ≤ 5)
    (within : ∀ f ∈ rest.head?, peekCount ≤ 1 + f.lengthField.length)
    (few : s.unread.length < peekCount) : Advances c frames s rest := by
  have held : s.held = s.unread := by rw [Rx.held, phase]
  have aligned := progress.aligned
  rw [held] at aligned
  have moves := @moves_step c s progress.sane
  have stepped : s.step c = match s.wire.read (bufferSize - s.unread.length) with
      | .blocked => s
      | .failed wire => ({ s with wire } : Rx).leave c .other
      | .data piece wire => { s with wire, unread := s.unread ++ piece } := by
    rw [step, phase]
    simp only [if_neg (show ¬5 < peekCount by omega), if_pos few]
  cases got : s.wire.read (bufferSize - s.unread.length) with
  | blocked =>
      rw [got] at stepped
      have ends := Wire.read_blocked got
      rw [unread_eq_nil aligned within few ends] at aligned
      have ended := aligned.finished (by
        intro block member
        rcases List.mem_map.mp member with ⟨f, -, rfl⟩
        exact bytes_ne_nil f) ends
      exact .inl ⟨stepped, List.map_eq_nil_iff.mp ended⟩
  | failed wire =>
      rw [got] at stepped
      rcases Wire.read_failed got with ⟨failed, smaller⟩
      have nothing := unread_eq_nil aligned within few failed
      rw [nothing, aligned_failed failed] at aligned
      have again : s.step c = { s with wire, unread := [], phase := .peek 2 } := by
        rw [stepped]
        have empty : s.rxRecv.length = 0 := by rw [progress.sane.peek peekCount phase]; rfl
        simp only [leave, resume, readPacket, if_pos empty]
      refine .inr ⟨rest, ?_, ?_⟩
      · refine ⟨moves.1, progress.valid, ?_, ?_, ?_⟩
        · rw [again]
          exact progress.returned
        · rw [again]
          exact aligned
        · exact reading_new (by rw [again])
      · rw [again, effort, effort, phase]
        simp only [List.length_nil]
        omega
  | data piece wire =>
      rw [got] at stepped
      have space : 0 < bufferSize - s.unread.length := by
        rw [bufferSize]
        omega
      rcases Wire.read_data space got with ⟨present, -, smaller, segment, later, after, before⟩
      refine .inr ⟨rest, ?_, ?_⟩
      · refine ⟨moves.1, progress.valid, ?_, ?_, ?_⟩
        · rw [stepped]
          exact progress.returned
        · rw [stepped, Rx.held]
          simp only [phase]
          exact (aligned_congr before after (List.append_assoc _ _ _).symm).mp aligned
        · exact .peek rest peekCount (by rw [stepped]; exact phase) two five within
      · have positive := List.length_pos_iff.mpr present
        rw [stepped, effort, effort]
        simp only [phase, List.length_append]
        omega

/-- The header is there, perhaps not all of it. -/
theorem advances_header (progress : Progress c frames s rest) {peekCount : ℕ}
    (phase : s.phase = .peek peekCount) (two : 2 ≤ peekCount) (five : peekCount ≤ 5)
    (within : ∀ f ∈ rest.head?, peekCount ≤ 1 + f.lengthField.length)
    (enough : peekCount ≤ s.unread.length) : Advances c frames s rest := by
  have held : s.held = s.unread := by rw [Rx.held, phase]
  have aligned := progress.aligned
  rw [held] at aligned
  have moves := @moves_step c s progress.sane
  rcases peeked aligned two within enough with ⟨f, rest', rfl, header, start⟩
  have valid := progress.valid f List.mem_cons_self
  -- the byte that decides is a byte of the length field
  have last : s.unread.getD (peekCount - 1) 0 = f.lengthField.getD (peekCount - 2) 0 := by
    have entry := congrArg (fun bytes => bytes.getD (peekCount - 1) 0) start
    rw [show peekCount - 1 = peekCount - 2 + 1 by omega, List.getD_cons_succ] at entry
    simp only [List.getD_eq_getElem?_getD] at entry ⊢
    rw [List.getElem?_take_of_lt (by omega), List.getElem?_take_of_lt (by omega)] at entry
    rw [show peekCount - 1 = peekCount - 2 + 1 by omega]
    exact entry
  have continues := continues_iff (show (uvarintLoop f.lengthField 0 0 0).2 =
    (0 : ℕ) + f.lengthField.length by rw [← uvarint, f.ends]; push_cast; ring) f.present
    (show peekCount - 2 < f.lengthField.length by omega)
  have stepped : s.step c = if 0x80 ≤ s.unread.getD (peekCount - 1) 0 then
      { s with phase := .peek (peekCount + 1) } else s.allocate c (s.unread.take peekCount) := by
    rw [step, phase]
    simp only [if_neg (show ¬5 < peekCount by omega), if_neg (Nat.not_lt.mpr enough)]
  rw [last] at stepped
  by_cases more : 0x80 ≤ f.lengthField.getD (peekCount - 2) 0
  · rw [if_pos more] at stepped
    have longer := continues.mp more
    have short := valid.short
    refine .inr ⟨f :: rest', ?_, ?_⟩
    · refine ⟨moves.1, progress.valid, ?_, ?_, ?_⟩
      · rw [stepped]
        exact progress.returned
      · rw [stepped]
        exact aligned
      · refine .peek _ (peekCount + 1) (by rw [stepped]) (by omega) (by omega) ?_
        rintro g ⟨⟩
        omega
    · rw [stepped, effort, effort]
      simp only [phase]
      omega
  · rw [if_neg more] at stepped
    have whole : peekCount - 1 = f.lengthField.length := by
      rw [continues] at more
      omega
    have length : f.body.length + 1 + f.lengthField.length = f.bytes.length := by
      rw [f.length_bytes]
      omega
    have allocated : s.step c = { s with
        rxRemaining := f.bytes.length
        rxRecv := List.replicate f.bytes.length 0
        phase := .read 0 } := by
      rw [stepped, start, whole, List.take_length]
      simp only [allocate, List.tail_cons, binaryUvarint_lengthField valid.short, Int.toNat_natCast,
        length, checkSize, if_neg (Nat.not_lt.mpr valid.fits), List.length_replicate, Nat.sub_self]
    have kept : (s.step c).held = s.unread := by rw [allocated]; rfl
    refine .inr ⟨f :: rest', ?_, ?_⟩
    · refine ⟨moves.1, progress.valid, ?_, ?_, ?_⟩
      · rw [allocated]
        exact progress.returned
      · rw [kept, allocated]
        exact aligned
      · refine .read f rest' 0 (by rw [allocated]) ?_ ?_
        · rw [allocated]
          exact List.length_replicate
        · rw [kept]
          exact List.length_pos_iff.mp (by omega)
    · have positive := List.length_pos_iff.mpr (bytes_ne_nil f)
      rw [allocated, effort, effort]
      simp only [phase]
      rw [if_neg (by omega)]
      omega

/-- The packet is complete, and it is the first frame. -/
theorem advances_decode {f : Frame} (progress : Progress c frames s (f :: rest)) {offset : ℕ}
    (phase : s.phase = .read offset) (length : s.rxRecv.length = f.bytes.length)
    (complete : offset = s.rxRemaining) : Advances c frames s (f :: rest) := by
  have held : s.held = s.rxRecv ++ s.unread := by
    rw [Rx.held, phase, complete, progress.sane.remaining]
    simp only [List.take_length]
  have aligned := progress.aligned
  rw [held, List.map_cons] at aligned
  have present : s.rxRecv ≠ [] := by
    rw [← List.length_pos_iff, length]
    exact List.length_pos_iff.mpr (bytes_ne_nil f)
  have same : s.rxRecv = f.bytes := by
    rcases aligned.head (by simp [present]) with ⟨block, others, segment, later, more, cut, -, flat⟩
    rw [List.cons.injEq] at cut
    rw [← cut.1, List.append_assoc] at flat
    exact (List.append_inj flat length).1
  rw [same] at aligned
  have moves := @moves_step c s progress.sane
  rcases (progress.valid f List.mem_cons_self).accepted with ⟨pkt, n, decoded, handled⟩
  have stepped : s.step c = { s with
      returned := s.returned ++ [(f.bytes, Packet.decode c.Version f.bytes)]
      rxRecv := []
      rxRemaining := 0
      phase := .peek 2 } := by
    rw [step, phase]
    simp only [if_pos complete, decode, same, decoded, handled, readPacket]
    rfl
  refine .inr ⟨rest, ?_, ?_⟩
  · refine ⟨moves.1, fun g member => progress.valid g (List.mem_cons_of_mem f member), ?_, ?_, ?_⟩
    · rw [stepped, progress.returned, List.map_cons, List.append_assoc, List.singleton_append]
    · rw [stepped]
      exact aligned.uncons (bytes_ne_nil f)
    · exact reading_new (by rw [stepped])
  · rw [stepped, effort, effort]
    simp only [phase]
    rw [if_pos complete]
    omega

/-- More of the packet is read. -/
theorem advances_read {f : Frame} (progress : Progress c frames s (f :: rest)) {offset : ℕ}
    (phase : s.phase = .read offset) (length : s.rxRecv.length = f.bytes.length)
    (begun : s.held ≠ []) (incomplete : offset ≠ s.rxRemaining) :
    Advances c frames s (f :: rest) := by
  have held : s.held = s.rxRecv.take offset ++ s.unread := by rw [Rx.held, phase]
  have inside := progress.sane.offset offset phase
  have short : offset < s.rxRecv.length := by
    have remaining := progress.sane.remaining
    omega
  have moves := @moves_step c s progress.sane
  -- data that ends here would end inside of the frame
  have goesOn : s.unread = [] → ∀ later, s.wire.segments ≠ [] :: later := by
    intro empty later ends
    rcases progress.aligned.complete begun ends with ⟨block, others, same, whole⟩
    rw [List.map_cons, List.cons.injEq] at same
    rw [← same.1, held, empty, List.append_nil, List.length_take] at whole
    omega
  have stepped : s.step c =
      match bufferedRead bufferSize (s.rxRecv.length - offset) s.unread s.wire with
      | .blocked => s
      | .failed wire => ({ s with wire } : Rx).leave c .other
      | .data piece unread wire =>
          { s with
            wire, unread
            rxRecv := store s.rxRecv offset piece
            phase := .read (offset + piece.length) } := by
    rw [step, phase]
    simp only [if_neg incomplete]
  cases got : bufferedRead bufferSize (s.rxRecv.length - offset) s.unread s.wire with
  | blocked =>
      rcases bufferedRead_blocked got with ⟨empty, ends⟩
      exact absurd ends (goesOn empty [])
  | failed wire =>
      rcases bufferedRead_failed got with ⟨empty, failed, -⟩
      exact absurd failed (goesOn empty _)
  | data piece left wire =>
      rw [got] at stepped
      rcases bufferedRead_data (by decide) (by omega) got with
        ⟨present, fits, smaller, segment, segment', later, before, after, same⟩
      have room : offset + piece.length ≤ s.rxRecv.length := by omega
      have next : (s.step c).held = s.rxRecv.take offset ++ piece ++ left := by
        rw [stepped]
        simp only [Rx.held, take_store room]
      refine .inr ⟨f :: rest, ?_, ?_⟩
      · refine ⟨moves.1, progress.valid, ?_, ?_, ?_⟩
        · rw [stepped]
          exact progress.returned
        · rw [next, stepped]
          refine (aligned_congr before after ?_).mp progress.aligned
          rw [held, List.append_assoc, same]
          simp only [List.append_assoc]
        · refine .read f rest (offset + piece.length) (by rw [stepped]) ?_ ?_
          · rw [stepped]
            exact (length_store room).trans length
          · rw [next]
            simp [present]
      · have positive := List.length_pos_iff.mpr present
        rw [stepped, effort, effort]
        simp only [phase, if_neg incomplete]
        split <;> omega

theorem Progress.advances (progress : Progress c frames s rest) : Advances c frames s rest := by
  cases progress.reading with
  | peek _ peekCount phase two five within =>
      by_cases few : s.unread.length < peekCount
      · exact advances_fill progress phase two five within few
      · exact advances_header progress phase two five within (by omega)
  | read f rest offset phase length begun =>
      by_cases complete : offset = s.rxRemaining
      · exact advances_decode progress phase length complete
      · exact advances_read progress phase length begun complete

/-- The receiver comes to its end with all frames. -/
theorem Progress.ends (progress : Progress c frames s rest) :
    ∃ n, ((step c)^[n] s).step c = (step c)^[n] s ∧ ((step c)^[n] s).returned =
      frames.map fun f => (f.bytes, Packet.decode c.Version f.bytes) := by
  induction bound : s.effort using Nat.strong_induction_on generalizing s rest with
  | _ effort ih =>
      rcases progress.advances with ⟨stays, ended⟩ | ⟨rest', next, smaller⟩
      · refine ⟨0, stays, ?_⟩
        rw [progress.returned, ended, List.map_nil, List.append_nil]
        rfl
      · rcases ih _ (bound ▸ smaller) next rfl with ⟨n, finished, returned⟩
        exact ⟨n + 1, finished, returned⟩

end Progress

theorem progress_new {c : RxConfig} {frames : List Frame} (valid : ∀ f ∈ frames, Valid c f)
    {wire : Wire UInt8} (aligned : Aligned [] wire (frames.map Frame.bytes)) :
    Progress c frames (new wire) frames where
  sane := sane_new wire
  valid := valid
  returned := rfl
  aligned := aligned
  reading := reading_new rfl

/-- If everything that was sent is returned, all reads that fail do so between two frames. -/
theorem Reassembles.aligned {c : RxConfig} {frames : List Frame} {wire : Wire UInt8}
    (reassembles : Reassembles c wire frames)
    (sent : wire.bytes = (frames.map Frame.bytes).flatten) :
    Aligned [] wire (frames.map Frame.bytes) := by
  rcases reassembles with ⟨n, -, returned⟩
  have bound := @total_iterate_le c _ (sane_new wire) n
  have all : (((step c)^[n] (new wire)).returned.map fun entry => entry.1.length).sum =
      (new wire).total := by
    rw [returned, List.map_map]
    change _ = 0 + 0 + wire.bytes.length
    rw [sent, List.length_flatten, List.map_map, Nat.zero_add]
    rfl
  rw [← all, total] at bound
  rcases @aligned_of_total c _ (sane_new wire) n (by rw [← all, total]; omega)
    (List.length_eq_zero_iff.mp (by omega)) (List.length_eq_zero_iff.mp (by omega)) with
    ⟨more, new, aligned⟩
  rw [returned] at new
  change _ = [] ++ more at new
  rw [List.nil_append] at new
  rw [← new, List.map_map] at aligned
  exact aligned

/-- For all valid frames and every way in which the network delivers their bytes and reads fail in
between, `readPacket` returns the decodings of the frames, in order and without losing or repeating
a byte, exactly when all reads that fail do so between two frames. -/
theorem reassembles_iff {c : RxConfig} {frames : List Frame} (valid : ∀ f ∈ frames, Valid c f)
    {wire : Wire UInt8} (sent : wire.bytes = (frames.map Frame.bytes).flatten) :
    Reassembles c wire frames ↔ Aligned [] wire (frames.map Frame.bytes) := by
  constructor
  · intro reassembles
    exact reassembles.aligned sent
  · intro aligned
    exact (progress_new valid aligned).ends

/-- A V3.1.1 connection whose packets are all processed without an error. -/
def sampleConfig : RxConfig := ⟨ProtocolV311, 268435455, fun _ _ => none⟩

theorem pingReq_valid : Valid sampleConfig Frame.pingReq :=
  ⟨by decide, by decide, _, _, rfl, fun _ => rfl⟩

/-- Two packets, the first of them in two pieces, with a failed read between them. -/
theorem samplePings_reassembled :
    Reassembles sampleConfig [some [0xC0], some [0], none, some [0xC0, 0]]
      [.pingReq, .pingReq] := by
  refine (reassembles_iff ?_ rfl).mpr ⟨[0xC0, 0], [[0xC0, 0]], [[0xC0, 0]], [[[0xC0, 0]]], rfl, rfl,
    rfl, rfl⟩
  intro f member
  have same : f = Frame.pingReq := by simpa using member
  exact same ▸ pingReq_valid

/-- The read fails after the first byte. -/
theorem samplePings_lost :
    (∀ f ∈ [Frame.pingReq, .pingReq], Valid sampleConfig f) ∧
      Wire.bytes [some [0xC0], none, some [0, 0xC0, 0]] =
        ([Frame.pingReq, .pingReq].map Frame.bytes).flatten ∧
      ¬Reassembles sampleConfig [some [0xC0], none, some [0, 0xC0, 0]]
        [.pingReq, .pingReq] := by
  refine ⟨?_, rfl, ?_⟩
  · intro f member
    have same : f = Frame.pingReq := by simpa using member
    exact same ▸ pingReq_valid
  · intro reassembles
    rcases reassembles.aligned rfl with ⟨segment, later, first, others, cut, whole, flat, -⟩
    cases cut
    cases first with
    | nil => cases flat
    | cons block first =>
        rw [List.map_cons, List.cons_append, List.cons.injEq] at whole
        rw [← whole.1] at flat
        change [0xC0] = 0xC0 :: 0 :: first.flatten at flat
        cases flat

end Rx

end VolantMQ.Connection
