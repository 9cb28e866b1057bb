import Mathlib.Data.List.Basic
import Mathlib.Tactic.Common

/-!
# Writing into byte slices

An encoder that fills a slice handed to it by its caller is a function from the old
contents of the slice to the new contents and the number of bytes it claims to have
written. Encoders are chained with `Writer.seq`: the second one receives what is left of
the slice after the count reported by the first, exactly as `to[offset:]` does.

`Emits good writer bytes` states what an encoder writes: on every destination that is
`good` and long enough, the slice starts with `bytes`, keeps its old contents after them,
and the reported count is their number. `good` is a property of destinations which is
inherited by suffixes, for instance "all bytes are zero" for a freshly allocated buffer or
"anything" for an encoder that writes every byte it reports.
`Steady writer` says less and needs less: whatever an encoder writes, and whether the slice is long
enough or not, the slice keeps its length.
-/

namespace Lib

/-- A byte sequence, and the contents of a byte slice. -/
abbrev Bytes := List UInt8

/-- How a computation on slices can go wrong: an out-of-range access, or a reported error. -/
inductive Fault (ε : Type) where
  | panic
  | error (reason : ε)
  deriving DecidableEq, Repr

/-- An encoder into a slice: new contents and number of bytes reported as written. -/
abbrev Writer (ε : Type) := Bytes → Except (Fault ε) (Bytes × ℕ)

/-- A mapped computation succeeds where the computation itself does. -/
theorem map_eq_ok {ε α β : Type} {f : α → β} {result : Except ε α} {value : β} :
    result.map f = .ok value ↔ ∃ found, result = .ok found ∧ f found = value := by
  cases result <;> simp [Except.map]

namespace Writer

variable {ε : Type}

/-- Write nothing and report nothing. -/
def skip : Writer ε := fun dest => .ok (dest, 0)

/-- Store all the given bytes at the start of the slice; out of range otherwise. -/
def put (bytes : Bytes) : Writer ε := fun dest =>
  if bytes.length ≤ dest.length then .ok (bytes ++ dest.drop bytes.length, bytes.length)
  else .error .panic

/-- Copy as many of the given bytes as fit. -/
def copy (bytes : Bytes) : Writer ε := fun dest =>
  .ok (bytes.take dest.length ++ dest.drop bytes.length, min bytes.length dest.length)

/-- Report an error. -/
def fail (reason : ε) : Writer ε := fun _ => .error (.error reason)

/-- Run the second encoder on the part of the slice after the count of the first. -/
def seq (first second : Writer ε) : Writer ε := fun dest =>
  match first dest with
  | .error fault => .error fault
  | .ok (written, count) =>
      if count ≤ written.length then
        match second (written.drop count) with
        | .error fault => .error fault
        | .ok (rest, more) => .ok (written.take count ++ rest, count + more)
      else .error .panic

/-- Run one more encoder for each element of a list. The slice is cut again in front of each of
them, and not behind the last one. -/
def thenEach {α : Type} (first : Writer ε) (encode : α → Writer ε) : List α → Writer ε
  | [] => first
  | element :: rest => thenEach (seq first (encode element)) encode rest

/-- Run one encoder for each element of a list, one after the other. -/
def each {α : Type} (encode : α → Writer ε) : List α → Writer ε := thenEach skip encode

end Writer

/-- All bytes of a freshly allocated slice are zero. -/
def Fresh (dest : Bytes) : Prop := ∀ byte ∈ dest, byte = 0

theorem Fresh.drop {dest : Bytes} (fresh : Fresh dest) (count : ℕ) : Fresh (dest.drop count) :=
  fun byte member => fresh byte (List.mem_of_mem_drop member)

theorem fresh_replicate (count : ℕ) : Fresh (List.replicate count 0) := by
  intro byte member
  exact (List.mem_replicate.mp member).2

/-- What an encoder writes on every good destination that is long enough. -/
def Emits {ε : Type} (good : Bytes → Prop) (writer : Writer ε) (bytes : Bytes) : Prop :=
  ∀ dest, good dest → bytes.length ≤ dest.length →
    writer dest = .ok (bytes ++ dest.drop bytes.length, bytes.length)

section Rules

variable {ε : Type} {good : Bytes → Prop}

theorem emits_skip : Emits good (Writer.skip : Writer ε) [] := by
  intro dest _ _
  simp [Writer.skip]

theorem emits_put (bytes : Bytes) : Emits good (Writer.put bytes : Writer ε) bytes := by
  intro dest _ enough
  simp [Writer.put, enough]

theorem emits_copy (bytes : Bytes) : Emits good (Writer.copy bytes : Writer ε) bytes := by
  intro dest _ enough
  simp [Writer.copy, List.take_of_length_le enough, enough]

/-- An encoder whose bytes are known hands the rest of the slice to the next one. -/
theorem Emits.run_seq {first : Writer ε} {left : Bytes} (firstEmits : Emits good first left)
    (second : Writer ε) {dest : Bytes} (isGood : good dest) (enough : left.length ≤ dest.length) :
    Writer.seq first second dest = (second (dest.drop left.length)).map
      fun (rest, more) => (left ++ rest, left.length + more) := by
  have fits : left.length ≤ (left ++ dest.drop left.length).length := by simp
  simp only [Writer.seq, firstEmits dest isGood enough, if_pos fits, List.drop_left,
    List.take_left]
  cases second (dest.drop left.length) <;> rfl

/-- What follows stored bytes leaves them as they are. -/
theorem exists_of_seq_put {bytes : Bytes} {second : Writer ε} {dest written : Bytes} {count : ℕ}
    (run : Writer.seq (.put bytes) second dest = .ok (written, count)) :
    ∃ rest, written = bytes ++ rest := by
  by_cases enough : bytes.length ≤ dest.length
  · rw [(@emits_put ε (fun _ => True) bytes).run_seq second trivial enough] at run
    rcases map_eq_ok.mp run with ⟨⟨rest, more⟩, -, same⟩
    exact ⟨rest, (congrArg Prod.fst same).symm⟩
  · simp [Writer.seq, Writer.put, enough] at run

/-- Chained encoders write one after the other. -/
theorem Emits.seq (inherited : ∀ dest count, good dest → good (dest.drop count))
    {first second : Writer ε} {left right : Bytes} (firstEmits : Emits good first left)
    (secondEmits : Emits good second right) :
    Emits good (Writer.seq first second) (left ++ right) := by
  intro dest isGood enough
  rw [List.length_append] at enough
  have rightRun := secondEmits (dest.drop left.length) (inherited dest _ isGood) (by
    rw [List.length_drop]; omega)
  rw [firstEmits.run_seq second isGood (by omega), rightRun]
  simp [Except.map, List.drop_drop, List.append_assoc]

/-- An encoder run for each element writes behind what is there. -/
theorem Emits.thenEach (inherited : ∀ dest count, good dest → good (dest.drop count)) {α : Type}
    {first : Writer ε} {left : Bytes} (firstEmits : Emits good first left)
    {encode : α → Writer ε} {bytes : α → Bytes} {elements : List α}
    (elementEmits : ∀ element ∈ elements, Emits good (encode element) (bytes element)) :
    Emits good (Writer.thenEach first encode elements) (left ++ elements.flatMap bytes) := by
  induction elements generalizing first left with
  | nil => simpa [Writer.thenEach] using firstEmits
  | cons element rest ih =>
      have step := firstEmits.seq inherited (elementEmits element (by simp))
      rw [List.flatMap_cons, ← List.append_assoc]
      exact ih step fun other member => elementEmits other (by simp [member])

/-- An encoder run for each element writes the concatenation. -/
theorem Emits.each (inherited : ∀ dest count, good dest → good (dest.drop count)) {α : Type}
    {encode : α → Writer ε} {bytes : α → Bytes} {elements : List α}
    (elementEmits : ∀ element ∈ elements, Emits good (encode element) (bytes element)) :
    Emits good (Writer.each encode elements) (elements.flatMap bytes) :=
  emits_skip.thenEach inherited elementEmits

end Rules

/-- An encoder that changes bytes of the slice but not its length. -/
def Steady {ε : Type} (writer : Writer ε) : Prop :=
  ∀ dest written count, writer dest = .ok (written, count) → written.length = dest.length

end Lib
