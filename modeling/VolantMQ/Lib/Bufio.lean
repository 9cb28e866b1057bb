import Mathlib.Algebra.Order.Ring.Nat
import Mathlib.Data.List.Basic
import Mathlib.Tactic.Common

/-!
# Buffered readers

A connection delivers its data in pieces, and some reads fail in between. The buffered reader of Go
sits on top of it: it fills its buffer when a caller looks ahead, and hands out what it has
buffered before it reads again. Large reads into an empty buffer go past it.

The data between two failures is a segment. Data that is to be cut into blocks is `Aligned` if the
failures only come between blocks; what has been read but not cut yet counts as the beginning of the
first segment.
-/

namespace Lib

/-- What a connection is going to deliver: pieces of data, and failed reads. -/
abbrev Wire (α : Type) := List (Option (List α))

/-- The result of a read. -/
inductive Got (α : Type) where
  | blocked
  | failed (rest : Wire α)
  | data (piece : List α) (rest : Wire α)

namespace Wire

variable {α : Type}

/-- `Read` into a space of `room` elements. A piece that does not fit is delivered in parts, and an
empty piece is no read at all. -/
def read (room : ℕ) : Wire α → Got α
  | [] => .blocked
  | none :: rest => .failed rest
  | some [] :: rest => read room rest
  | some (x :: xs) :: rest =>
      .data ((x :: xs).take room)
        (if room < (x :: xs).length then some ((x :: xs).drop room) :: rest else rest)

/-- The data before the first failure, and between one failure and the next. -/
def segments : Wire α → List (List α)
  | [] => [[]]
  | none :: rest => [] :: segments rest
  | some piece :: rest =>
      match segments rest with
      | [] => [piece]
      | segment :: later => (piece ++ segment) :: later

/-- The data before the first failure. -/
def front (wire : Wire α) : List α := wire.segments.headD []

/-- All data. -/
def bytes (wire : Wire α) : List α := wire.segments.flatten

/-- A bound on the number of reads. -/
def size (wire : Wire α) : ℕ := (wire.map fun piece => 1 + (piece.getD []).length).sum

theorem segments_ne_nil (wire : Wire α) : wire.segments ≠ [] := by
  cases wire with
  | nil => simp [segments]
  | cons piece rest =>
      cases piece with
      | none => simp [segments]
      | some piece =>
          unfold segments
          split <;> simp

theorem segments_cons {piece : List α} {rest : Wire α} {segment : List α} {later : List (List α)}
    (tail : rest.segments = segment :: later) :
    segments (some piece :: rest) = (piece ++ segment) :: later := by
  rw [segments, tail]

theorem exists_segments (wire : Wire α) : ∃ segment later, wire.segments = segment :: later :=
  List.exists_cons_of_ne_nil wire.segments_ne_nil

theorem read_blocked {room : ℕ} {wire : Wire α} (run : wire.read room = .blocked) :
    wire.segments = [[]] := by
  fun_induction read room wire with
  | case1 => rfl
  | case2 rest => cases run
  | case3 rest ih => rw [segments_cons (ih run), List.nil_append]
  | case4 x xs rest => cases run

theorem read_failed {room : ℕ} {wire rest : Wire α} (run : wire.read room = .failed rest) :
    wire.segments = [] :: rest.segments ∧ rest.size < wire.size := by
  fun_induction read room wire with
  | case1 => cases run
  | case2 rest =>
      cases run
      refine ⟨rfl, ?_⟩
      simp [size]
  | case3 rest ih =>
      rcases ih run with ⟨same, smaller⟩
      refine ⟨by rw [segments_cons same, List.nil_append], ?_⟩
      simp only [size, List.map_cons, List.sum_cons] at smaller ⊢
      omega
  | case4 x xs rest => cases run

theorem read_data {room : ℕ} {wire rest : Wire α} {piece : List α} (space : 0 < room)
    (run : wire.read room = .data piece rest) :
    piece ≠ [] ∧ piece.length ≤ room ∧ rest.size + piece.length ≤ wire.size ∧
      ∃ segment later, rest.segments = segment :: later ∧
        wire.segments = (piece ++ segment) :: later := by
  fun_induction read room wire with
  | case1 => cases run
  | case2 rest => cases run
  | case3 rest ih =>
      rcases ih run with ⟨present, fits, smaller, segment, later, tail, same⟩
      refine ⟨present, fits, ?_, segment, later, tail, by rw [segments_cons same, List.nil_append]⟩
      simp only [size, List.map_cons, List.sum_cons] at smaller ⊢
      omega
  | case4 x xs rest =>
      simp only [Got.data.injEq] at run
      rcases run with ⟨rfl, rfl⟩
      rcases exists_segments rest with ⟨segment, later, tail⟩
      refine ⟨?_, List.length_take_le _ _, ?_, ?_⟩
      · rw [← List.length_pos_iff, List.length_take, List.length_cons]
        omega
      · split
        · simp only [size, List.map_cons, List.sum_cons, Option.getD_some, List.length_drop,
            List.length_take]
          omega
        · simp only [size, List.map_cons, List.sum_cons, Option.getD_some, List.length_take]
          omega
      · split
        · refine ⟨_, later, segments_cons tail, ?_⟩
          rw [segments_cons tail, ← List.append_assoc, List.take_append_drop]
        · rename_i whole
          refine ⟨segment, later, tail, ?_⟩
          rw [segments_cons tail, List.take_of_length_le (by omega)]

theorem front_blocked {room : ℕ} {wire : Wire α} (run : wire.read room = .blocked) :
    wire.front = [] := by
  rw [front, read_blocked run]
  rfl

theorem front_failed {room : ℕ} {wire rest : Wire α} (run : wire.read room = .failed rest) :
    wire.front = [] := by
  rw [front, (read_failed run).1]
  rfl

theorem front_data {room : ℕ} {wire rest : Wire α} {piece : List α} (space : 0 < room)
    (run : wire.read room = .data piece rest) : wire.front = piece ++ rest.front := by
  rcases read_data space run with ⟨-, -, -, segment, later, after, before⟩
  rw [front, front, before, after]
  rfl

end Wire

/-- The result of a buffered read. -/
inductive Took (α : Type) where
  | blocked
  | failed (rest : Wire α)
  | data (piece unread : List α) (rest : Wire α)

/-- `Reader.Read` for a slice of `room` elements: what is buffered is handed out first. -/
def bufferedRead {α : Type} (size room : ℕ) (unread : List α) (wire : Wire α) : Took α :=
  if unread ≠ [] then .data (unread.take room) (unread.drop room) wire
  else if size ≤ room then
    match wire.read room with
    | .blocked => .blocked
    | .failed rest => .failed rest
    | .data piece rest => .data piece [] rest
  else
    match wire.read size with
    | .blocked => .blocked
    | .failed rest => .failed rest
    | .data piece rest => .data (piece.take room) (piece.drop room) rest

section Buffer

variable {α : Type} {size room : ℕ} {unread : List α} {wire rest : Wire α}

theorem bufferedRead_blocked (run : bufferedRead size room unread wire = .blocked) :
    unread = [] ∧ wire.segments = [[]] := by
  unfold bufferedRead at run
  split at run
  · cases run
  · rename_i empty
    refine ⟨not_not.mp empty, ?_⟩
    split at run
    · cases got : wire.read room <;> simp only [got] at run
      · exact Wire.read_blocked got
      · cases run
      · cases run
    · cases got : wire.read size <;> simp only [got] at run
      · exact Wire.read_blocked got
      · cases run
      · cases run

theorem bufferedRead_failed (run : bufferedRead size room unread wire = .failed rest) :
    unread = [] ∧ wire.segments = [] :: rest.segments ∧ rest.size < wire.size := by
  unfold bufferedRead at run
  split at run
  · cases run
  · rename_i empty
    refine ⟨not_not.mp empty, ?_⟩
    split at run
    · cases got : wire.read room <;> simp only [got] at run
      · cases run
      · cases run
        exact Wire.read_failed got
      · cases run
    · cases got : wire.read size <;> simp only [got] at run
      · cases run
      · cases run
        exact Wire.read_failed got
      · cases run

/-- Data is neither lost nor made up, and the reader comes closer to the end of the wire. -/
theorem bufferedRead_data {piece left : List α} (buffer : 0 < size) (space : 0 < room)
    (run : bufferedRead size room unread wire = .data piece left rest) :
    piece ≠ [] ∧ piece.length ≤ room ∧
      2 * rest.size + left.length + piece.length ≤ 2 * wire.size + unread.length ∧
      ∃ segment segment' later, wire.segments = segment :: later ∧
        rest.segments = segment' :: later ∧ unread ++ segment = piece ++ (left ++ segment') := by
  unfold bufferedRead at run
  split at run
  · rename_i present
    cases run
    rcases wire.exists_segments with ⟨segment, later, same⟩
    refine ⟨?_, List.length_take_le _ _, ?_, segment, segment, later, same, same, ?_⟩
    · rw [← List.length_pos_iff] at present ⊢
      rw [List.length_take]
      omega
    · rw [List.length_take, List.length_drop]
      omega
    · rw [← List.append_assoc, List.take_append_drop]
  · rename_i empty
    rw [not_not.mp empty]
    split at run
    · cases got : wire.read room <;> simp only [got] at run
      · cases run
      · cases run
      · cases run
        rcases Wire.read_data space got with ⟨present, fits, smaller, segment, later, tail, same⟩
        refine ⟨present, fits, ?_, _, segment, later, same, tail, rfl⟩
        simp only [List.length_nil]
        omega
    · cases got : wire.read size with
      | blocked => simp only [got] at run; cases run
      | failed after => simp only [got] at run; cases run
      | data whole after =>
          simp only [got] at run
          cases run
          rcases Wire.read_data buffer got with ⟨present, fits, smaller, segment, later, tail, same⟩
          refine ⟨?_, List.length_take_le _ _, ?_, _, segment, later, same, tail, ?_⟩
          · rw [← List.length_pos_iff] at present ⊢
            rw [List.length_take]
            omega
          · rw [List.length_take, List.length_drop, List.length_nil]
            omega
          · rw [List.nil_append, ← List.append_assoc, List.take_append_drop]

end Buffer

/-- The blocks can be distributed over the segments, the first of which begins with what is already
there. -/
def Aligned {α : Type} (held : List α) (wire : Wire α) (blocks : List (List α)) : Prop :=
  ∃ (segment : List α) (later first : List (List α)) (others : List (List (List α))),
    wire.segments = segment :: later ∧ blocks = first ++ others.flatten ∧
    held ++ segment = first.flatten ∧ later = others.map List.flatten

section Aligned

variable {α : Type} {held : List α} {wire : Wire α} {blocks : List (List α)}

/-- More data arrives in the segment. -/
theorem aligned_congr {held' : List α} {wire' : Wire α} {segment segment' : List α}
    {later : List (List α)} (before : wire.segments = segment :: later)
    (after : wire'.segments = segment' :: later) (same : held ++ segment = held' ++ segment') :
    Aligned held wire blocks ↔ Aligned held' wire' blocks := by
  unfold Aligned
  constructor
  · rintro ⟨found, rest, first, others, cut, whole, flat, groups⟩
    rw [before, List.cons.injEq] at cut
    refine ⟨segment', later, first, others, after, whole, ?_, cut.2 ▸ groups⟩
    rw [← same, cut.1, flat]
  · rintro ⟨found, rest, first, others, cut, whole, flat, groups⟩
    rw [after, List.cons.injEq] at cut
    refine ⟨segment, later, first, others, before, whole, ?_, cut.2 ▸ groups⟩
    rw [same, cut.1, flat]

/-- A failure with nothing there. -/
theorem aligned_failed {rest : Wire α} (failed : wire.segments = [] :: rest.segments) :
    Aligned [] wire blocks ↔ Aligned [] rest blocks := by
  constructor
  · rintro ⟨segment, later, first, others, cut, whole, flat, groups⟩
    rw [failed, List.cons.injEq] at cut
    rw [← cut.1, List.nil_append] at flat
    cases others with
    | nil => exact absurd (cut.2.trans groups) rest.segments_ne_nil
    | cons next others =>
        refine ⟨next.flatten, others.map List.flatten, first ++ next, others, cut.2.trans groups,
          ?_, ?_, rfl⟩
        · rw [whole, List.flatten_cons, List.append_assoc]
        · rw [List.flatten_append, ← flat, List.nil_append]
  · rintro ⟨segment, later, first, others, cut, whole, flat, groups⟩
    refine ⟨[], rest.segments, [], first :: others, failed, by simpa using whole, rfl, ?_⟩
    rw [cut, List.map_cons, groups, ← flat, List.nil_append]

/-- The first block is cut off. -/
theorem Aligned.uncons {block : List α} (present : block ≠ [])
    (aligned : Aligned (block ++ held) wire (block :: blocks)) : Aligned held wire blocks := by
  rcases aligned with ⟨segment, later, first, others, cut, whole, flat, groups⟩
  cases first with
  | nil => simp [present] at flat
  | cons head first =>
      rw [List.cons_append, List.cons.injEq] at whole
      rw [List.flatten_cons, ← whole.1, List.append_assoc, List.append_cancel_left_eq] at flat
      exact ⟨segment, later, first, others, cut, whole.2, flat, groups⟩

theorem Aligned.cons (aligned : Aligned held wire blocks) (block : List α) :
    Aligned (block ++ held) wire (block :: blocks) := by
  rcases aligned with ⟨segment, later, first, others, cut, whole, flat, groups⟩
  refine ⟨segment, later, block :: first, others, cut, ?_, ?_, groups⟩
  · rw [whole, List.cons_append]
  · rw [List.flatten_cons, List.append_assoc, flat]

/-- What is there is the beginning of the first block. -/
theorem Aligned.head (aligned : Aligned held wire blocks) (present : held ≠ []) :
    ∃ block others segment later more, blocks = block :: others ∧
      wire.segments = segment :: later ∧ held ++ segment = block ++ more := by
  rcases aligned with ⟨segment, later, first, others, cut, whole, flat, -⟩
  cases first with
  | nil => simp [present] at flat
  | cons block first => exact ⟨block, _, segment, later, _, whole, cut, flat⟩

/-- Before a failure, or at the end, the first block is complete. -/
theorem Aligned.complete {later : List (List α)} (aligned : Aligned held wire blocks)
    (present : held ≠ []) (ends : wire.segments = [] :: later) :
    ∃ block others, blocks = block :: others ∧ block.length ≤ held.length := by
  rcases aligned.head present with ⟨block, others, segment, rest, more, same, cut, flat⟩
  refine ⟨block, others, same, ?_⟩
  rw [ends, List.cons.injEq] at cut
  rw [← cut.1, List.append_nil] at flat
  rw [flat, List.length_append]
  omega

/-- At the end nothing is left to come. -/
theorem Aligned.finished (aligned : Aligned [] wire blocks) (nonempty : ∀ block ∈ blocks, block ≠ [])
    (ends : wire.segments = [[]]) : blocks = [] := by
  rcases aligned with ⟨segment, later, first, others, cut, whole, flat, groups⟩
  rw [ends, List.cons.injEq] at cut
  have none : others = [] := List.map_eq_nil_iff.mp (cut.2.trans groups).symm
  rw [none, List.flatten_nil, List.append_nil] at whole
  rw [← cut.1, List.nil_append, ← whole] at flat
  cases blocks with
  | nil => rfl
  | cons block blocks =>
      have empty := List.flatten_eq_nil_iff.mp flat.symm block List.mem_cons_self
      exact absurd empty (nonempty block List.mem_cons_self)

/-- Without data to come the blocks are exhausted. -/
theorem aligned_nil (empty : wire.bytes = []) : Aligned [] wire [] := by
  rcases wire.exists_segments with ⟨segment, later, cut⟩
  have all : ∀ piece ∈ segment :: later, piece = [] := by
    rw [← cut]
    exact List.flatten_eq_nil_iff.mp empty
  refine ⟨segment, later, [], later.map fun _ => [], cut, ?_, ?_, ?_⟩
  · simp
  · rw [all segment List.mem_cons_self]
    rfl
  · rw [List.map_map]
    refine (List.map_id later).symm.trans (List.map_congr_left ?_)
    intro piece member
    exact all piece (List.mem_cons_of_mem segment member)

end Aligned

end Lib
