import VolantMQ.Connection.Framing

/-!
# Connections through a WebSocket

`connWs` makes a stream of bytes out of messages. What a message has left is kept for the next
`Read`, and a message that is not binary is answered with no bytes and no error. Its reader is kept
all the same, so that the bytes of a text message follow with the next call.

A caller that goes on after a `Read` of no bytes cannot tell such a connection from a plain one that
delivers the pieces of all messages.
-/

namespace VolantMQ.Transport

open Lib Packet Connection

/-- The message types of the WebSocket package. -/
inductive MessageType where
  | TextMessage
  | BinaryMessage
  | CloseMessage
  | PingMessage
  | PongMessage
  deriving DecidableEq, Repr

/-- The `io.Reader` of a message: what is left of it, in the pieces in which it arrives. Some
readers report the end of the message already with its last bytes. -/
structure MessageReader where
  pieces : List Bytes
  early : Bool
  deriving DecidableEq, Repr

namespace MessageReader

/-- `Read` into a slice of `room` bytes: what is left, the bytes, and whether there was an error. -/
def readPieces (early : Bool) (room : ℕ) : List Bytes → List Bytes × Bytes × Bool
  | [] => ([], [], true)
  | [] :: rest => readPieces early room rest
  | (x :: xs) :: rest =>
      let left := if room < (x :: xs).length then (x :: xs).drop room :: rest else rest
      (left, (x :: xs).take room, early && left.isEmpty)

def read (room : ℕ) (r : MessageReader) : MessageReader × Bytes × Bool :=
  let (left, bytes, err) := readPieces r.early room r.pieces
  ({ r with pieces := left }, bytes, err)

end MessageReader

/-- `connWs`, with what `NextReader` is going to return: a message, or an error. -/
structure ConnWs where
  prev : Option MessageReader
  incoming : List (Option (MessageType × MessageReader))
  /-- The bytes counted by `stat`. -/
  received : ℕ

/-- What a `Read` comes to. -/
inductive WsRead where
  /-- No message has come. -/
  | blocked
  | eof (c : ConnWs)
  | read (bytes : Bytes) (c : ConnWs)

namespace ConnWs

/-- The two places of `Read` where a message is read. -/
def take (c : ConnWs) (room : ℕ) (r : MessageReader) : ConnWs × Bytes :=
  let (r, bytes, err) := r.read room
  ({ c with prev := if err then none else some r, received := c.received + bytes.length }, bytes)

/-- `Read` from the call of `NextReader` on -/
def readNext (c : ConnWs) (room : ℕ) : WsRead :=
  match c.incoming with
  | [] => .blocked
  | none :: rest => .eof { c with prev := none, incoming := rest }
  | some (mType, r) :: rest =>
      let c := { c with prev := some r, incoming := rest }
      match mType with
      | .CloseMessage => .eof c
      | .TextMessage | .PingMessage | .PongMessage => .read [] c
      | .BinaryMessage =>
          let (c, bytes) := c.take room r
          .read bytes c

/-- `connWs.Read` -/
def read (c : ConnWs) (room : ℕ) : WsRead :=
  match c.prev with
  | some r =>
      let (c, bytes) := c.take room r
      if bytes ≠ [] then .read bytes c else c.readNext room
  | none => c.readNext room

/-- The calls of `Read` up to the first that returns a byte or an error. Each of the others takes a
message, so that one more than there are messages is enough. -/
def await (room : ℕ) : ℕ → ConnWs → WsRead
  | 0, c => c.read room
  | tries + 1, c =>
      match c.read room with
      | .read [] c => await room tries c
      | other => other

/-- What `NextReader` returns, as pieces of a stream. -/
def arriving : Option (MessageType × MessageReader) → Wire UInt8
  | none => [none]
  | some (mType, r) =>
      (if mType = .CloseMessage then [none] else []) ++ r.pieces.map some

def wire (c : ConnWs) : Wire UInt8 :=
  ((c.prev.map MessageReader.pieces).getD []).map some ++ c.incoming.flatMap arriving

end ConnWs

/-- A read of a message is a read of its pieces, unless they are used up. -/
theorem readPieces_spec {early : Bool} {room : ℕ} (space : 0 < room) (pieces : List Bytes)
    (rest : Wire UInt8) :
    ∃ left bytes err, MessageReader.readPieces early room pieces = (left, bytes, err) ∧
      ((bytes = [] ∧ err = true ∧ Wire.read room (pieces.map some ++ rest) = rest.read room) ∨
        (bytes ≠ [] ∧ (err = true → left = []) ∧
          Wire.read room (pieces.map some ++ rest) = .data bytes (left.map some ++ rest))) := by
  fun_induction MessageReader.readPieces early room pieces with
  | case1 => exact ⟨_, _, _, rfl, .inl ⟨rfl, rfl, rfl⟩⟩
  | case2 pieces ih => exact ih
  | case3 x xs pieces left =>
      refine ⟨_, _, _, rfl, .inr ⟨?_, ?_, ?_⟩⟩
      · cases room with
        | zero => cases space
        | succ room => simp
      · intro err
        simp only [Bool.and_eq_true, List.isEmpty_iff] at err
        exact err.2
      · simp only [List.map_cons, List.cons_append, Wire.read, left]
        split <;> simp

namespace ConnWs

variable {c : ConnWs} {room : ℕ}

/-- The pieces of a message that is kept for the next `Read`. -/
def kept (prev : Option MessageReader) : Wire UInt8 :=
  ((prev.map MessageReader.pieces).getD []).map some

theorem take_spec (space : 0 < room) (c : ConnWs) (r : MessageReader) (rest : Wire UInt8) :
    (c.take room r = ({ c with prev := none }, []) ∧
        Wire.read room (r.pieces.map some ++ rest) = rest.read room) ∨
      ∃ bytes prev, c.take room r =
          ({ c with prev, received := c.received + bytes.length }, bytes) ∧ bytes ≠ [] ∧
        Wire.read room (r.pieces.map some ++ rest) = .data bytes (kept prev ++ rest) := by
  rcases @readPieces_spec r.early room space r.pieces rest with
    ⟨left, bytes, err, run, ⟨rfl, rfl, skipped⟩ | ⟨present, ended, read⟩⟩
  · refine .inl ⟨?_, skipped⟩
    simp [take, MessageReader.read, run]
  · refine .inr ⟨bytes, if err then none else some { r with pieces := left }, ?_, present, ?_⟩
    · simp [take, MessageReader.read, run]
    · rw [read]
      cases err with
      | true =>
          rw [ended rfl]
          rfl
      | false => rfl

/-- A `Read` of the connection and one of the wire have the same result, and what was read is
counted. -/
def Agrees (received : ℕ) : WsRead → Got UInt8 → Prop
  | .blocked, .blocked => True
  | .eof next, .failed rest => next.wire = rest ∧ next.received = received
  | .read bytes next, .data piece rest =>
      bytes ≠ [] ∧ bytes = piece ∧ next.wire = rest ∧ next.received = received + piece.length
  | _, _ => False

/-- A `Read` that returns nothing has taken a message and left the wire as it reads. -/
structure Skips (c next : ConnWs) (room : ℕ) (wire : Wire UInt8) : Prop where
  fewer : next.incoming.length < c.incoming.length
  same : next.wire.read room = wire.read room
  received : next.received = c.received

theorem readNext_spec (space : 0 < room) (c : ConnWs) :
    Agrees c.received (c.readNext room) (Wire.read room (c.incoming.flatMap arriving)) ∨
      ∃ next, c.readNext room = .read [] next ∧
        c.Skips next room (c.incoming.flatMap arriving) := by
  rcases c with ⟨prev, incoming, received⟩
  cases incoming with
  | nil => exact .inl trivial
  | cons first rest =>
      cases first with
      | none => exact .inl ⟨rfl, rfl⟩
      | some message =>
          rcases message with ⟨mType, r⟩
          cases mType with
          | CloseMessage => exact .inl ⟨rfl, rfl⟩
          | TextMessage | PingMessage | PongMessage =>
              exact .inr ⟨_, rfl, Nat.lt_succ_self _, rfl, rfl⟩
          | BinaryMessage =>
              have wire : (some (MessageType.BinaryMessage, r) :: rest).flatMap arriving =
                  r.pieces.map some ++ rest.flatMap arriving := rfl
              rw [wire]
              rcases take_spec space ⟨some r, rest, received⟩ r (rest.flatMap arriving) with
                ⟨taken, skipped⟩ | ⟨bytes, prev, taken, present, read⟩
              · simp only [readNext, taken]
                exact .inr ⟨_, rfl, Nat.lt_succ_self _, skipped.symm, rfl⟩
              · simp only [readNext, taken, read]
                exact .inl ⟨present, rfl, rfl, rfl⟩

theorem read_spec (space : 0 < room) (c : ConnWs) :
    Agrees c.received (c.read room) (c.wire.read room) ∨
      ∃ next, c.read room = .read [] next ∧ c.Skips next room c.wire := by
  rcases c with ⟨_ | r, incoming, received⟩
  · exact readNext_spec space _
  · have wire : (ConnWs.mk (some r) incoming received).wire =
        r.pieces.map some ++ incoming.flatMap arriving := rfl
    rw [wire]
    rcases take_spec space ⟨some r, incoming, received⟩ r (incoming.flatMap arriving) with
      ⟨taken, skipped⟩ | ⟨bytes, prev, taken, present, rest⟩
    · simp only [read, taken, ne_eq, not_true_eq_false, if_false, skipped]
      rcases readNext_spec space ⟨none, incoming, received⟩ with agrees | ⟨next, reads, skips⟩
      · exact .inl agrees
      · exact .inr ⟨next, reads, skips.fewer, skips.same.trans skipped.symm, skips.received⟩
    · simp only [read, taken, if_pos present, rest]
      exact .inl ⟨present, rfl, rfl, rfl⟩

/-- Going on after a `Read` of nothing is reading the wire. -/
theorem await_agrees (space : 0 < room) {tries : ℕ} (enough : c.incoming.length ≤ tries) :
    Agrees c.received (await room tries c) (c.wire.read room) := by
  induction tries generalizing c with
  | zero =>
      rcases read_spec space c with agrees | ⟨next, -, skips⟩
      · exact agrees
      · have fewer := skips.fewer
        omega
  | succ tries ih =>
      rw [await]
      rcases read_spec space c with agrees | ⟨next, reads, skips⟩
      · cases reads : c.read room with
        | blocked | eof next =>
            rw [reads] at agrees
            exact agrees
        | read bytes next =>
            rw [reads] at agrees
            cases bytes with
            | nil =>
                cases got : c.wire.read room with
                | blocked | failed rest =>
                    rw [got] at agrees
                    exact agrees.elim
                | data piece rest =>
                    rw [got] at agrees
                    exact absurd rfl agrees.1
            | cons byte bytes => exact agrees
      · have later := @ih next (by have fewer := skips.fewer; omega)
        rw [reads, ← skips.same, ← skips.received]
        exact later

/-- The results of a `Read` along with those of the wire. -/
theorem await_cases (space : 0 < room) (c : ConnWs) :
    (await room c.incoming.length c = .blocked ∧ c.wire.read room = .blocked) ∨
      (∃ next rest, await room c.incoming.length c = .eof next ∧ c.wire.read room = .failed rest ∧
        next.received = c.received) ∨
      ∃ bytes next, await room c.incoming.length c = .read bytes next ∧
        c.wire.read room = .data bytes next.wire ∧ bytes ≠ [] ∧
        next.received = c.received + bytes.length := by
  have agrees := @await_agrees c room space c.incoming.length (Nat.le_refl _)
  cases result : await room c.incoming.length c with
  | blocked =>
      rw [result] at agrees
      cases got : c.wire.read room with
      | blocked => exact .inl ⟨rfl, rfl⟩
      | failed rest | data piece rest =>
          rw [got] at agrees
          exact agrees.elim
  | eof next =>
      rw [result] at agrees
      cases got : c.wire.read room with
      | failed rest =>
          rw [got] at agrees
          exact .inr (.inl ⟨next, rest, rfl, rfl, agrees.2⟩)
      | blocked | data piece rest =>
          rw [got] at agrees
          exact agrees.elim
  | read bytes next =>
      rw [result] at agrees
      cases got : c.wire.read room with
      | data piece rest =>
          rw [got] at agrees
          rcases agrees with ⟨present, rfl, rfl, counted⟩
          exact .inr (.inr ⟨_, next, rfl, rfl, present, counted⟩)
      | blocked | failed rest =>
          rw [got] at agrees
          exact agrees.elim

/-- The payload of a message, unless it ends the stream. -/
def payload : Option (MessageType × MessageReader) → Option Bytes
  | none | some (.CloseMessage, _) => none
  | some (_, r) => some r.pieces.flatten

/-- The payloads of the messages up to the first error. -/
def payloads : List (Option (MessageType × MessageReader)) → Bytes
  | [] => []
  | message :: rest =>
      match payload message with
      | none => []
      | some bytes => bytes ++ payloads rest

/-- All bytes of a connection: what the last message has left, and the payloads of the others. -/
def stream (c : ConnWs) : Bytes :=
  ((c.prev.map MessageReader.pieces).getD []).flatten ++ payloads c.incoming

theorem front_some (piece : Bytes) (rest : Wire UInt8) :
    Wire.front (some piece :: rest) = piece ++ rest.front := by
  rcases Wire.exists_segments rest with ⟨segment, later, segments⟩
  rw [Wire.front, Wire.front, Wire.segments_cons segments, segments]
  rfl

theorem front_pieces (pieces : List Bytes) (rest : Wire UInt8) :
    Wire.front (pieces.map some ++ rest) = pieces.flatten ++ rest.front := by
  induction pieces with
  | nil => rfl
  | cons piece pieces ih =>
      rw [List.map_cons, List.cons_append, front_some, ih, List.flatten_cons, List.append_assoc]

theorem front_incoming (incoming : List (Option (MessageType × MessageReader))) :
    Wire.front (incoming.flatMap arriving) = payloads incoming := by
  induction incoming with
  | nil => rfl
  | cons message rest ih =>
      rw [List.flatMap_cons]
      cases message with
      | none => rfl
      | some message =>
          rcases message with ⟨mType, r⟩
          cases mType with
          | CloseMessage => rfl
          | TextMessage | BinaryMessage | PingMessage | PongMessage =>
              exact (front_pieces r.pieces _).trans (congrArg (r.pieces.flatten ++ ·) ih)

theorem front_wire (c : ConnWs) : c.wire.front = c.stream := by
  rw [wire, front_pieces, front_incoming]
  rfl

/-- Calls of `Read` with slices of the given lengths, until one waits or returns an error: what they
return, and the connection afterwards. -/
def reads (c : ConnWs) : List ℕ → Bytes × ConnWs
  | [] => ([], c)
  | room :: rooms =>
      match await room c.incoming.length c with
      | .blocked => ([], c)
      | .eof next => ([], next)
      | .read bytes next => (bytes ++ (next.reads rooms).1, (next.reads rooms).2)

/-- Whatever the slices are, the reads return the payloads of the messages, text or not, one after
the other and in any cut; each byte is counted once, and as many reads as there are bytes return
them all. -/
theorem reads_stream {rooms : List ℕ} (space : ∀ room ∈ rooms, 0 < room) (c : ConnWs) :
    (c.reads rooms).1 <+: c.stream ∧
      (c.reads rooms).2.received = c.received + (c.reads rooms).1.length ∧
      (c.stream.length ≤ rooms.length → (c.reads rooms).1 = c.stream) := by
  induction rooms generalizing c with
  | nil =>
      refine ⟨List.nil_prefix, rfl, ?_⟩
      intro none
      exact (List.length_eq_zero_iff.mp (Nat.le_zero.mp none)).symm
  | cons room rooms ih =>
      have positive := space room List.mem_cons_self
      rw [reads, ← front_wire]
      rcases await_cases positive c with ⟨result, got⟩ | ⟨next, rest, result, got, counted⟩ |
        ⟨bytes, next, result, got, present, counted⟩
      · rw [result, Wire.front_blocked got]
        exact ⟨List.nil_prefix, rfl, fun _ => rfl⟩
      · rw [result, Wire.front_failed got]
        exact ⟨List.nil_prefix, counted, fun _ => rfl⟩
      · have later := ih (fun room member => space room (List.mem_cons_of_mem _ member)) next
        rw [result, Wire.front_data positive got, front_wire]
        refine ⟨?_, ?_, ?_⟩
        · exact (List.prefix_append_right_inj bytes).mpr later.1
        · rw [later.2.1, counted, List.length_append, Nat.add_assoc]
        · intro enough
          have some := List.length_pos_iff.mpr present
          rw [List.length_append, List.length_cons] at enough
          exact congrArg (bytes ++ ·) (later.2.2 (by omega))

/-- A text message and a binary one in two pieces. -/
def sampleWs : ConnWs :=
  ⟨none, [some (.TextMessage, ⟨[[1, 2]], false⟩), some (.BinaryMessage, ⟨[[3], [4, 5]], true⟩)], 0⟩

theorem reads_sampleWs : (sampleWs.reads [1, 9, 9, 9, 9]).1 = [1, 2, 3, 4, 5] := by
  have space : ∀ room ∈ [1, 9, 9, 9, 9], 0 < room := by simp
  exact (reads_stream space sampleWs).2.2 (by decide)

/-- What `GetMessageBuffer` comes to. -/
inductive FirstPacket where
  | blocked
  | failed
  | rejected
  | message (buf : Bytes) (rest : ConnWs)

/-- The header loop of `GetMessageBuffer`, which goes on after a `Read` of nothing. -/
def readHeader : ℕ → Bytes → ConnWs → FirstPacket
  | 0, buf, _ => if 5 < buf.length then .rejected else .blocked
  | reads + 1, buf, c =>
      if 5 < buf.length then .rejected
      else
        match await 1 c.incoming.length c with
        | .blocked => .blocked
        | .eof _ => .failed
        | .read b c =>
            if 1 < (buf ++ b).length ∧ b.headD 0 < 0x80 then .message (buf ++ b) c
            else readHeader reads (buf ++ b) c

/-- The loop of `GetMessageBuffer` for the rest of the message. -/
def readBody : ℕ → Bytes → ℕ → ConnWs → FirstPacket
  | 0, buf, l, c => if l < buf.length then .blocked else .message buf c
  | reads + 1, buf, l, c =>
      if l < buf.length then
        match await (buf.length - l) c.incoming.length c with
        | .blocked => .blocked
        | .eof _ => .failed
        | .read piece c => readBody reads (Rx.store buf l piece) (l + piece.length) c
      else .message buf c

/-- `GetMessageBuffer` of a WebSocket connection. -/
def getMessageBuffer (c : ConnWs) : FirstPacket :=
  match readHeader 6 [] c with
  | .message buf c =>
      let (remLen, _) := binaryUvarint buf.tail
      readBody remLen (buf ++ List.replicate remLen 0) buf.length c
  | other => other

def FirstPacket.buffered : FirstPacket → Buffered
  | .blocked => .blocked
  | .failed => .failed
  | .rejected => .rejected
  | .message buf rest => .message buf rest.wire

theorem buffered_readHeader (reads : ℕ) (buf : Bytes) (c : ConnWs) :
    (readHeader reads buf c).buffered = Connection.readHeader reads buf c.wire := by
  induction reads generalizing buf c with
  | zero =>
      rw [readHeader, Connection.readHeader]
      split <;> rfl
  | succ reads ih =>
      rw [readHeader, Connection.readHeader]
      split
      · rfl
      · rcases await_cases Nat.one_pos c with ⟨result, got⟩ | ⟨next, rest, result, got, -⟩ |
          ⟨bytes, next, result, got, -⟩
        · rw [result, got]
          rfl
        · rw [result, got]
          rfl
        · rw [result, got]
          dsimp only
          split
          · rfl
          · exact ih (buf ++ bytes) next

theorem buffered_readBody (reads : ℕ) (buf : Bytes) (l : ℕ) (c : ConnWs) :
    (readBody reads buf l c).buffered = Connection.readBody reads buf l c.wire := by
  induction reads generalizing buf l c with
  | zero =>
      rw [readBody, Connection.readBody]
      split <;> rfl
  | succ reads ih =>
      rw [readBody, Connection.readBody]
      split
      · rename_i short
        rcases await_cases (Nat.sub_pos_of_lt short) c with ⟨result, got⟩ |
          ⟨next, rest, result, got, -⟩ | ⟨bytes, next, result, got, -⟩
        · rw [result, got]
          rfl
        · rw [result, got]
          rfl
        · rw [result, got]
          exact ih _ _ next
      · rfl

theorem buffered_getMessageBuffer (c : ConnWs) :
    c.getMessageBuffer.buffered = Connection.getMessageBuffer c.wire := by
  have header := buffered_readHeader 6 [] c
  rw [getMessageBuffer, Connection.getMessageBuffer, ← header]
  cases readHeader 6 [] c with
  | blocked | failed | rejected => rfl
  | message buf rest => exact buffered_readBody _ _ _ rest

/-- The first packet that comes through a WebSocket is cut out of the payloads of the messages as it
is cut out of a stream, however the messages cut it. -/
theorem outcome_firstPacket (c : ConnWs) :
    c.getMessageBuffer.buffered.outcome = delimit 5 c.stream := by
  rw [buffered_getMessageBuffer, outcome_getMessageBuffer, front_wire]

end ConnWs

end VolantMQ.Transport
