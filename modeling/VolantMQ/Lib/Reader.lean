import VolantMQ.Lib.Buffer

/-!
# Reading from byte slices

A decoder is handed a slice and returns a value and the number of bytes it consumed. Often the
slice goes on after the part that the decoder is meant for, and the decoder has to stop by
itself. A `Reader` is a decoder together with a condition on slices, `inside`, under which what
follows the slice makes no difference to the decoder: it never looks past the end. Readers are
put together with `bind`, and the condition of the whole is put together with them.

`Reads reader bytes value` states what a reader makes of given bytes, whatever follows them.
-/

namespace Lib

/-- A decoder that knows on which slices it does not look past the end. -/
structure Reader (ε α : Type) where
  run : Bytes → Except (Fault ε) (α × ℕ)
  inside : Bytes → Prop
  bounded : ∀ {src value n}, run src = .ok (value, n) → n ≤ src.length
  stable : ∀ {src}, inside src → ∀ more, run (src ++ more) = run src

namespace Reader

variable {ε α β : Type}

/-- Return a value without reading. -/
def pure (value : α) : Reader ε α where
  run _ := .ok (value, 0)
  inside _ := True
  bounded run := by
    simp only [Except.ok.injEq, Prod.mk.injEq] at run
    omega
  stable _ _ := rfl

/-- Give up without reading. -/
def fail (fault : Fault ε) : Reader ε α where
  run _ := .error fault
  inside _ := True
  bounded run := by simp at run
  stable _ _ := rfl

/-- Run the second reader on what the first one left. -/
def bind (reader : Reader ε α) (next : α → Reader ε β) : Reader ε β where
  run src :=
    match reader.run src with
    | .error fault => .error fault
    | .ok (value, n) =>
        match (next value).run (src.drop n) with
        | .error fault => .error fault
        | .ok (result, m) => .ok (result, n + m)
  inside src := reader.inside src ∧
    ∀ value n, reader.run src = .ok (value, n) → (next value).inside (src.drop n)
  bounded := by
    intro src result k run
    cases first : reader.run src with
    | error fault => simp [first] at run
    | ok pair =>
        rcases pair with ⟨value, n⟩
        cases second : (next value).run (src.drop n) with
        | error fault => simp [first, second] at run
        | ok pair =>
            rcases pair with ⟨_, m⟩
            simp only [first, second, Except.ok.injEq, Prod.mk.injEq] at run
            have firstBound := reader.bounded first
            have secondBound := (next value).bounded second
            rw [List.length_drop] at secondBound
            omega
  stable := by
    rintro src ⟨firstInside, secondInside⟩ more
    have first := reader.stable firstInside more
    rw [first]
    cases found : reader.run src with
    | error fault => rfl
    | ok pair =>
        rcases pair with ⟨value, n⟩
        have dropped : (src ++ more).drop n = src.drop n ++ more :=
          List.drop_append_of_le_length (reader.bounded found)
        simp only [dropped, (next value).stable (secondInside value n found) more]

instance : Monad (Reader ε) where
  pure := pure
  bind := bind

/-- The value together with the number of bytes it took. -/
def counted (reader : Reader ε α) : Reader ε (α × ℕ) where
  run src := (reader.run src).map fun (value, n) => ((value, n), n)
  inside := reader.inside
  bounded := by
    intro src value n run
    rcases map_eq_ok.mp run with ⟨pair, found, same⟩
    simp only [Prod.mk.injEq] at same
    exact same.2 ▸ reader.bounded found
  stable within more := by rw [reader.stable within more]

/-- Whether the slice has no more bytes. -/
def atEnd : Reader ε Bool where
  run src := .ok (src.isEmpty, 0)
  inside src := src ≠ []
  bounded run := by
    simp only [Except.ok.injEq, Prod.mk.injEq] at run
    omega
  stable := by
    intro src present more
    cases src with
    | nil => exact absurd rfl present
    | cons first rest => rfl

/-- Index the slice; out of range at its end. -/
def byte : Reader ε UInt8 where
  run
    | [] => .error .panic
    | first :: _ => .ok (first, 1)
  inside src := src ≠ []
  bounded := by
    intro src value n run
    cases src with
    | nil => simp at run
    | cons first rest =>
        simp only [Except.ok.injEq, Prod.mk.injEq] at run
        simp only [List.length_cons]
        omega
  stable := by
    intro src present more
    cases src with
    | nil => exact absurd rfl present
    | cons first rest => rfl

/-- Look at the first byte of the slice without consuming it. -/
def peek : Reader ε UInt8 where
  run
    | [] => .error .panic
    | first :: _ => .ok (first, 0)
  inside src := src ≠ []
  bounded := by
    intro src value n run
    cases src with
    | nil => simp at run
    | cons first rest =>
        simp only [Except.ok.injEq, Prod.mk.injEq] at run
        omega
  stable := by
    intro src present more
    cases src with
    | nil => exact absurd rfl present
    | cons first rest => rfl

/-- The next bytes of the slice, or a fault if there are fewer. -/
def take (short : Fault ε) (count : ℕ) : Reader ε Bytes where
  run src := if count ≤ src.length then .ok (src.take count, count) else .error short
  inside src := count ≤ src.length
  bounded := by
    intro src value n run
    split at run
    · simp only [Except.ok.injEq, Prod.mk.injEq] at run
      omega
    · simp at run
  stable := by
    intro src enough more
    have longer : count ≤ (src ++ more).length := by
      rw [List.length_append]
      omega
    rw [if_pos longer, if_pos enough, List.take_append_of_le_length enough]

/-- Read a field that is there only sometimes. -/
def optional (present : Prop) [Decidable present] (reader : Reader ε α) (absent : α) :
    Reader ε α := if present then reader else Pure.pure absent

section Rules

variable {reader : Reader ε α} {next : α → Reader ε β} {src : Bytes}

@[simp]
theorem run_pure (value : α) : (Pure.pure value : Reader ε α).run src = .ok (value, 0) := rfl

@[simp]
theorem inside_pure (value : α) : (Pure.pure value : Reader ε α).inside src := trivial

@[simp]
theorem run_fail (fault : Fault ε) : (fail fault : Reader ε α).run src = .error fault := rfl

@[simp]
theorem inside_fail (fault : Fault ε) : (fail fault : Reader ε α).inside src := trivial

theorem inside_bind : (reader >>= next).inside src ↔ reader.inside src ∧
    ∀ value n, reader.run src = .ok (value, n) → (next value).inside (src.drop n) := Iff.rfl

@[simp]
theorem run_byte_nil : (byte : Reader ε UInt8).run [] = .error .panic := rfl

@[simp]
theorem run_byte_cons (first : UInt8) (rest : Bytes) :
    (byte : Reader ε UInt8).run (first :: rest) = .ok (first, 1) := rfl

@[simp]
theorem run_peek_cons (first : UInt8) (rest : Bytes) :
    (peek : Reader ε UInt8).run (first :: rest) = .ok (first, 0) := rfl

@[simp]
theorem run_atEnd_nil : (atEnd : Reader ε Bool).run [] = .ok (true, 0) := rfl

@[simp]
theorem run_atEnd_cons (first : UInt8) (rest : Bytes) :
    (atEnd : Reader ε Bool).run (first :: rest) = .ok (false, 0) := rfl

theorem run_bind : (reader >>= next).run src =
    match reader.run src with
    | .error fault => .error fault
    | .ok (value, n) => ((next value).run (src.drop n)).map fun (result, m) => (result, n + m) := by
  change (reader.bind next).run src = _
  simp only [bind]
  cases reader.run src with
  | error fault => rfl
  | ok pair =>
      simp only
      cases (next pair.1).run (src.drop pair.2) <;> rfl

theorem run_bind_of_ok {value : α} {n : ℕ} (first : reader.run src = .ok (value, n)) :
    (reader >>= next).run src =
      ((next value).run (src.drop n)).map fun (result, m) => (result, n + m) := by
  change (reader.bind next).run src = _
  simp only [bind, first]
  cases (next value).run (src.drop n) <;> rfl

theorem run_bind_of_error {fault : Fault ε} (first : reader.run src = .error fault) :
    (reader >>= next).run src = .error fault := by
  change (reader.bind next).run src = _
  simp only [bind, first]

/-- A chain of readers succeeds exactly when each of them does, one after the other. -/
theorem run_bind_eq_ok {result : β} {k : ℕ} : (reader >>= next).run src = .ok (result, k) ↔
    ∃ value n m, reader.run src = .ok (value, n) ∧
      (next value).run (src.drop n) = .ok (result, m) ∧ k = n + m := by
  constructor
  · intro run
    cases first : reader.run src with
    | error fault =>
        rw [run_bind_of_error first] at run
        simp at run
    | ok pair =>
        rcases pair with ⟨value, n⟩
        rw [run_bind_of_ok first] at run
        rcases map_eq_ok.mp run with ⟨⟨last, m⟩, second, same⟩
        simp only [Prod.mk.injEq] at same
        exact ⟨value, n, m, rfl, same.1 ▸ second, same.2.symm⟩
  · rintro ⟨value, n, m, first, second, rfl⟩
    rw [run_bind_of_ok first, second]
    rfl

theorem run_map (f : α → β) :
    (f <$> reader).run src = (reader.run src).map fun (value, n) => (f value, n) := by
  change (reader >>= fun value => pure (f value)).run src = _
  cases first : reader.run src with
  | error fault =>
      rw [run_bind_of_error first]
      rfl
  | ok pair =>
      rw [run_bind_of_ok first]
      rfl

@[simp]
theorem inside_map (f : α → β) : (f <$> reader).inside src ↔ reader.inside src :=
  ⟨fun within => within.1, fun within => ⟨within, fun _ _ _ => trivial⟩⟩

/-- Two continuations may be exchanged where they agree. -/
theorem bind_congr {other : α → Reader ε β}
    (agree : ∀ value n, reader.run src = .ok (value, n) →
      (next value).run (src.drop n) = (other value).run (src.drop n) ∧
        ((next value).inside (src.drop n) ↔ (other value).inside (src.drop n))) :
    (reader >>= next).run src = (reader >>= other).run src ∧
      ((reader >>= next).inside src ↔ (reader >>= other).inside src) := by
  constructor
  · cases first : reader.run src with
    | error fault => rw [run_bind_of_error first, run_bind_of_error first]
    | ok pair =>
        rcases pair with ⟨value, n⟩
        rw [run_bind_of_ok first, run_bind_of_ok first, (agree value n first).1]
  · rw [inside_bind, inside_bind]
    refine and_congr_right fun _ => forall_congr' fun value => forall_congr' fun n => ?_
    exact ⟨fun holds first => (agree value n first).2.mp (holds first),
      fun holds first => (agree value n first).2.mpr (holds first)⟩

theorem run_counted_eq_ok {value : α} {count n : ℕ} :
    reader.counted.run src = .ok ((value, count), n) ↔
      reader.run src = .ok (value, n) ∧ count = n := by
  change (reader.run src).map (fun (value, n) => ((value, n), n)) = _ ↔ _
  cases reader.run src with
  | error fault => simp [Except.map]
  | ok pair =>
      rcases pair with ⟨found, m⟩
      simp only [Except.map, Except.ok.injEq, Prod.mk.injEq]
      constructor
      · rintro ⟨⟨rfl, rfl⟩, rfl⟩
        exact ⟨⟨rfl, rfl⟩, rfl⟩
      · rintro ⟨⟨rfl, rfl⟩, rfl⟩
        exact ⟨⟨rfl, rfl⟩, rfl⟩

theorem run_counted_of_ok {value : α} {n : ℕ} (run : reader.run src = .ok (value, n)) :
    reader.counted.run src = .ok ((value, n), n) := run_counted_eq_ok.mpr ⟨run, rfl⟩

theorem run_counted_of_error {fault : Fault ε} (run : reader.run src = .error fault) :
    reader.counted.run src = .error fault := by
  change (reader.run src).map _ = _
  rw [run]
  rfl

/-- A check that gives up has passed if the reader succeeds. -/
theorem run_check_eq_ok {condition : Prop} [Decidable condition] {fault : Fault ε}
    {result : α × ℕ} : (if condition then fail fault else reader).run src = .ok result ↔
      ¬condition ∧ reader.run src = .ok result := by
  split
  · rename_i holds
    simp [holds]
  · rename_i fails
    simp [fails]

theorem run_byte_eq_ok {value : UInt8} {n : ℕ} :
    (byte : Reader ε UInt8).run src = .ok (value, n) ↔ (∃ rest, src = value :: rest) ∧ n = 1 := by
  cases src with
  | nil => simp [byte]
  | cons first rest => simp [byte, eq_comm]

theorem run_take_of_le {short : Fault ε} {count : ℕ} (enough : count ≤ src.length) :
    (take short count).run src = .ok (src.take count, count) := if_pos enough

theorem run_take_of_lt {short : Fault ε} {count : ℕ} (few : src.length < count) :
    (take short count).run src = .error short := if_neg (Nat.not_le.mpr few)

theorem run_take_eq_ok {short : Fault ε} {count n : ℕ} {value : Bytes} :
    (take short count).run src = .ok (value, n) ↔
      count ≤ src.length ∧ value = src.take count ∧ n = count := by
  by_cases enough : count ≤ src.length
  · rw [run_take_of_le enough]
    simp [enough, eq_comm]
  · rw [run_take_of_lt (Nat.lt_of_not_le enough)]
    simp [enough]

theorem optional_of_present {present : Prop} [Decidable present] (holds : present)
    (reader : Reader ε α) (absent : α) : optional present reader absent = reader := if_pos holds

theorem optional_of_absent {present : Prop} [Decidable present] (fails : ¬present)
    (reader : Reader ε α) (absent : α) : optional present reader absent = Pure.pure absent :=
  if_neg fails

theorem optional_congr {present other : Prop} [Decidable present] [Decidable other]
    (same : present ↔ other) (reader : Reader ε α) (absent : α) :
    optional present reader absent = optional other reader absent := if_congr same rfl rfl

end Rules

section Gives

/-- Every value that the reader returns has the property. -/
def Gives (reader : Reader ε α) (good : α → Prop) : Prop :=
  ∀ src value n, reader.run src = .ok (value, n) → good value

variable {good : α → Prop}

theorem gives_pure {value : α} (holds : good value) :
    Gives (Pure.pure value : Reader ε α) good := by
  intro src other n run
  simp only [run_pure, Except.ok.injEq, Prod.mk.injEq] at run
  exact run.1 ▸ holds

theorem gives_fail (fault : Fault ε) : Gives (fail fault : Reader ε α) good := by
  intro src value n run
  simp at run

/-- Only the last of two readers decides what is returned. -/
theorem Gives.bind {reader : Reader ε β} {next : β → Reader ε α}
    (then_ : ∀ value, Gives (next value) good) : Gives (reader >>= next) good := by
  intro src result n run
  rcases run_bind_eq_ok.mp run with ⟨value, _, _, _, second, _⟩
  exact then_ value _ _ _ second

theorem Gives.map_of {known : β → Prop} {f : β → α} {reader : Reader ε β}
    (gives : reader.Gives known) (all : ∀ value, known value → good (f value)) :
    Gives (f <$> reader) good := by
  intro src result n run
  rw [run_map] at run
  rcases map_eq_ok.mp run with ⟨pair, found, same⟩
  simp only [Prod.mk.injEq] at same
  exact same.1 ▸ all pair.1 (gives _ _ _ found)

theorem Gives.map {f : β → α} {reader : Reader ε β} (all : ∀ value, good (f value)) :
    Gives (f <$> reader) good :=
  map_of (fun _ _ _ _ => trivial) fun value _ => all value

theorem Gives.ite {condition : Prop} [Decidable condition] {left right : Reader ε α}
    (first : Gives left good) (second : Gives right good) :
    Gives (if condition then left else right) good := by
  split
  · exact first
  · exact second

end Gives

section Honest

/-- A reader that succeeds only where it stays inside the slice. -/
def Honest (reader : Reader ε α) : Prop :=
  ∀ src value n, reader.run src = .ok (value, n) → reader.inside src

theorem honest_pure (value : α) : Honest (Pure.pure value : Reader ε α) := fun _ _ _ _ => trivial

theorem honest_fail (fault : Fault ε) : Honest (fail fault : Reader ε α) := fun _ _ _ _ => trivial

theorem Honest.inside_bind {reader : Reader ε α} {next : α → Reader ε β} {src : Bytes}
    {result : β × ℕ} (second : ∀ value, Honest (next value)) (first : reader.inside src)
    (run : (reader >>= next).run src = .ok result) : (reader >>= next).inside src := by
  rcases run_bind_eq_ok.mp run with ⟨value, n, m, firstRun, secondRun, -⟩
  refine ⟨first, ?_⟩
  intro other count otherRun
  rw [firstRun, Except.ok.injEq, Prod.mk.injEq] at otherRun
  rcases otherRun with ⟨rfl, rfl⟩
  exact second value (src.drop n) result.1 m secondRun

/-- A chain is honest if its first reader stays inside the slice or its second one gives up. -/
theorem Honest.bind_or {reader : Reader ε α} {next : α → Reader ε β}
    (first : ∀ src value n, reader.run src = .ok (value, n) →
      reader.inside src ∨ ∀ result, (next value).run (src.drop n) ≠ .ok result)
    (second : ∀ value, Honest (next value)) : Honest (reader >>= next) := by
  intro src result k run
  rcases run_bind_eq_ok.mp run with ⟨value, n, m, firstRun, secondRun, -⟩
  rcases first src value n firstRun with within | gives
  · exact Honest.inside_bind second within run
  · exact absurd secondRun (gives _)

theorem Honest.bind {reader : Reader ε α} {next : α → Reader ε β} (first : Honest reader)
    (second : ∀ value, Honest (next value)) : Honest (reader >>= next) :=
  Honest.bind_or (fun src value n run => .inl (first src value n run)) second

theorem Honest.counted {reader : Reader ε α} (honest : Honest reader) : Honest reader.counted := by
  rintro src ⟨value, count⟩ n run
  exact honest src value n (run_counted_eq_ok.mp run).1

theorem Honest.ite {condition : Prop} [Decidable condition] {left right : Reader ε α}
    (first : Honest left) (second : Honest right) :
    Honest (if condition then left else right) := by
  split
  · exact first
  · exact second

theorem Honest.optional {present : Prop} [Decidable present] {reader : Reader ε α}
    (honest : Honest reader) (absent : α) : Honest (optional present reader absent) :=
  honest.ite (honest_pure absent)

theorem honest_byte : Honest (byte : Reader ε UInt8) := by
  rintro (_ | ⟨first, rest⟩) value n run
  · simp [byte] at run
  · exact List.cons_ne_nil first rest

theorem honest_peek : Honest (peek : Reader ε UInt8) := by
  rintro (_ | ⟨first, rest⟩) value n run
  · simp [peek] at run
  · exact List.cons_ne_nil first rest

theorem honest_take (short : Fault ε) (count : ℕ) : Honest (take short count) := by
  intro src value n run
  by_contra few
  rw [run_take_of_lt (Nat.lt_of_not_le few)] at run
  simp at run

end Honest

end Reader

/-- What a reader makes of given bytes, whatever follows them. -/
def Reads {ε α : Type} (reader : Reader ε α) (bytes : Bytes) (value : α) : Prop :=
  ∀ rest, reader.run (bytes ++ rest) = .ok (value, bytes.length)

section Rules

variable {ε α β : Type}

theorem reads_pure (value : α) : Reads (Pure.pure value : Reader ε α) [] value := fun _ => rfl

theorem Reads.bind {reader : Reader ε α} {next : α → Reader ε β} {left right : Bytes} {value : α}
    {result : β} (first : Reads reader left value) (second : Reads (next value) right result) :
    Reads (reader >>= next) (left ++ right) result := by
  intro rest
  rw [List.append_assoc, Reader.run_bind_of_ok (first (right ++ rest)), List.drop_left,
    second rest, List.length_append]
  rfl

theorem Reads.map {reader : Reader ε α} {bytes : Bytes} {value : α} (f : α → β)
    (reads : Reads reader bytes value) : Reads (f <$> reader) bytes (f value) := by
  intro rest
  rw [Reader.run_map, reads rest]
  rfl

/-- The second reader may read nothing more. -/
theorem Reads.finish {reader : Reader ε α} {next : α → Reader ε β} {bytes : Bytes} {value : α}
    {result : β} (first : Reads reader bytes value) (second : Reads (next value) [] result) :
    Reads (reader >>= next) bytes result := by
  have both := first.bind second
  rwa [List.append_nil] at both

theorem Reads.counted {reader : Reader ε α} {bytes : Bytes} {value : α}
    (reads : Reads reader bytes value) : Reads reader.counted bytes (value, bytes.length) := by
  intro rest
  exact Reader.run_counted_eq_ok.mpr ⟨reads rest, rfl⟩

theorem Reads.run {reader : Reader ε α} {bytes : Bytes} {value : α}
    (reads : Reads reader bytes value) : reader.run bytes = .ok (value, bytes.length) := by
  have alone := reads []
  rwa [List.append_nil] at alone

/-- A check that passes. -/
theorem Reads.check {condition : Prop} [Decidable condition] {fault : Fault ε}
    {reader : Reader ε α} {bytes : Bytes} {value : α} (passes : ¬condition)
    (reads : Reads reader bytes value) :
    Reads (if condition then Reader.fail fault else reader) bytes value := by
  rwa [if_neg passes]

theorem Reads.optional {present : Prop} [Decidable present] {reader : Reader ε α} {absent : α}
    {bytes : Bytes} {value : α} (there : present → Reads reader bytes value)
    (missing : ¬present → bytes = [] ∧ value = absent) :
    Reads (Reader.optional present reader absent) bytes value := by
  by_cases holds : present
  · rw [Reader.optional_of_present holds]
    exact there holds
  · rcases missing holds with ⟨rfl, rfl⟩
    rw [Reader.optional_of_absent holds]
    exact reads_pure value

theorem reads_byte (value : UInt8) : Reads (Reader.byte : Reader ε UInt8) [value] value :=
  fun _ => rfl

theorem reads_take (short : Fault ε) (bytes : Bytes) :
    Reads (Reader.take short bytes.length) bytes bytes := by
  intro rest
  change (if bytes.length ≤ (bytes ++ rest).length then _ else _) = _
  rw [if_pos (by simp), List.take_left]

end Rules

end Lib
