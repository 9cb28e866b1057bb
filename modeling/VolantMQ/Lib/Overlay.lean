import VolantMQ.Lib.Buffer

/-!
# What is left of the old contents of a slice

An encoder that reports a byte without writing it leaves the old byte of the slice in the output.
A mask has a cell for each byte that an encoder reports: the byte that is written there, or nothing
where the old one stays. `Prints least writer mask` says that the encoder puts this mask over every
slice of at least a given length that has room for it, whatever the slice held before.

`Grows writer` says that success depends on the length of the slice only, and that an encoder which
succeeds on one slice succeeds on every longer one.
-/

namespace Lib

/-- For each reported byte what is written there, if anything is. -/
abbrev Mask := List (Option UInt8)

/-- A mask that replaces every byte. -/
def Mask.full (bytes : Bytes) : Mask := bytes.map some

@[simp]
theorem Mask.length_full (bytes : Bytes) : (full bytes).length = bytes.length := by
  simp [full]

@[simp]
theorem Mask.none_notMem_full (bytes : Bytes) : none ∉ full bytes := by
  simp [full]

/-- The bytes under a mask. -/
def covered (mask : Mask) (dest : Bytes) : Bytes :=
  List.zipWith (fun cell old => cell.getD old) mask dest

/-- The slice after a mask was put over its start. -/
def overlay (mask : Mask) (dest : Bytes) : Bytes := covered mask dest ++ dest.drop mask.length

section Masks

variable {mask first second : Mask} {dest other : Bytes}

theorem length_covered (room : mask.length ≤ dest.length) :
    (covered mask dest).length = mask.length := by
  simp [covered, room]

theorem take_overlay (room : mask.length ≤ dest.length) :
    (overlay mask dest).take mask.length = covered mask dest := by
  rw [overlay, List.take_left' (length_covered room)]

theorem drop_overlay (room : mask.length ≤ dest.length) :
    (overlay mask dest).drop mask.length = dest.drop mask.length := by
  rw [overlay, List.drop_left' (length_covered room)]

theorem covered_full {bytes : Bytes} (room : bytes.length ≤ dest.length) :
    covered (.full bytes) dest = bytes := by
  induction bytes generalizing dest with
  | nil => rfl
  | cons byte bytes ih =>
      cases dest with
      | nil => simp at room
      | cons old dest =>
          simp only [List.length_cons, Nat.add_le_add_iff_right] at room
          have rest := ih room
          simp only [covered, Mask.full] at rest
          simp [covered, Mask.full, rest]

theorem overlay_full {bytes : Bytes} (room : bytes.length ≤ dest.length) :
    overlay (.full bytes) dest = bytes ++ dest.drop bytes.length := by
  rw [overlay, covered_full room, Mask.length_full]

theorem covered_append :
    covered (first ++ second) dest = covered first dest ++ covered second (dest.drop first.length) := by
  induction first generalizing dest with
  | nil => simp [covered]
  | cons cell first ih =>
      cases dest with
      | nil => simp [covered]
      | cons old dest =>
          have rest := @ih dest
          simp only [covered] at rest
          simp [covered, rest]

theorem overlay_append :
    overlay (first ++ second) dest = covered first dest ++ overlay second (dest.drop first.length) := by
  simp [overlay, covered_append, List.drop_drop]

/-- A mask without holes hides the old contents. -/
theorem covered_eq (whole : none ∉ mask) (room : mask.length ≤ dest.length)
    (otherRoom : mask.length ≤ other.length) : covered mask dest = covered mask other := by
  induction mask generalizing dest other with
  | nil => rfl
  | cons cell mask ih =>
      cases dest with
      | nil => simp at room
      | cons old dest =>
          cases other with
          | nil => simp at otherRoom
          | cons byte other =>
              simp only [List.mem_cons, not_or] at whole
              simp only [List.length_cons, Nat.add_le_add_iff_right] at room otherRoom
              have rest := ih whole.2 room otherRoom
              simp only [covered] at rest
              cases cell with
              | none => exact absurd rfl whole.1
              | some byte => simp [covered, rest]

/-- A mask with a hole shows what a slice was filled with. -/
theorem covered_ne (hole : none ∈ mask) {count : ℕ} (room : mask.length ≤ count) {old new : UInt8}
    (differ : old ≠ new) :
    covered mask (List.replicate count old) ≠ covered mask (List.replicate count new) := by
  induction mask generalizing count with
  | nil => simp at hole
  | cons cell mask ih =>
      cases count with
      | zero => simp at room
      | succ count =>
          simp only [List.length_cons, Nat.add_le_add_iff_right] at room
          simp only [covered, List.replicate_succ, List.zipWith_cons_cons, ne_eq, List.cons.injEq,
            not_and]
          intro same
          rcases List.mem_cons.mp hole with rfl | later
          · exact absurd same differ
          · exact ih later room

end Masks

/-- On every slice of at least this length an encoder reports as many bytes as the mask has cells,
and puts the mask over the slice if there is room for it. -/
def Prints {ε : Type} (least : ℕ) (writer : Writer ε) (mask : Mask) : Prop :=
  ∀ dest written count, least ≤ dest.length → writer dest = .ok (written, count) →
    written.length = dest.length ∧ count = mask.length ∧
      (mask.length ≤ dest.length → written = overlay mask dest)

section Prints

variable {ε : Type} {least : ℕ} {first second : Writer ε}

theorem Prints.mono {more : ℕ} {mask : Mask} (prints : Prints least first mask)
    (longer : least ≤ more) : Prints more first mask := by
  intro dest written count long run
  exact prints dest written count (by omega) run

theorem prints_skip : Prints least (Writer.skip : Writer ε) [] := by
  intro dest written count _ run
  simp only [Writer.skip, Except.ok.injEq, Prod.mk.injEq] at run
  rcases run with ⟨rfl, rfl⟩
  simp [overlay, covered]

theorem prints_fail (reason : ε) {mask : Mask} :
    Prints least (Writer.fail reason : Writer ε) mask := by
  intro dest written count _ run
  simp [Writer.fail] at run

theorem prints_put (bytes : Bytes) : Prints least (Writer.put bytes : Writer ε) (.full bytes) := by
  intro dest written count _ run
  simp only [Writer.put] at run
  split at run
  · rename_i room
    simp only [Except.ok.injEq, Prod.mk.injEq] at run
    rcases run with ⟨rfl, rfl⟩
    refine ⟨?_, by simp, fun _ => (overlay_full room).symm⟩
    rw [List.length_append, List.length_drop]
    omega
  · simp at run

/-- A copy is whole on a slice that has room for it. -/
theorem prints_copy {bytes : Bytes} (room : bytes.length ≤ least) :
    Prints least (Writer.copy bytes : Writer ε) (.full bytes) := by
  intro dest written count long run
  have enough : bytes.length ≤ dest.length := by omega
  simp only [Writer.copy, Except.ok.injEq, Prod.mk.injEq] at run
  rcases run with ⟨rfl, rfl⟩
  rw [List.take_of_length_le enough]
  refine ⟨?_, by simp [enough], fun _ => (overlay_full enough).symm⟩
  rw [List.length_append, List.length_drop]
  omega

theorem seq_eq_ok {dest written : Bytes} {count : ℕ}
    (run : Writer.seq first second dest = .ok (written, count)) :
    ∃ half done rest more, first dest = .ok (half, done) ∧ done ≤ half.length ∧
      second (half.drop done) = .ok (rest, more) ∧ written = half.take done ++ rest ∧
      count = done + more := by
  simp only [Writer.seq] at run
  cases firstRun : first dest with
  | error fault => simp [firstRun] at run
  | ok result =>
      rcases result with ⟨half, done⟩
      simp only [firstRun] at run
      split at run
      · rename_i room
        cases secondRun : second (half.drop done) with
        | error fault => simp [secondRun] at run
        | ok result =>
            rcases result with ⟨rest, more⟩
            simp only [secondRun, Except.ok.injEq, Prod.mk.injEq] at run
            exact ⟨half, done, rest, more, rfl, room, secondRun, run.1.symm, run.2.symm⟩
      · simp at run

/-- The mask of the second encoder comes behind that of the first one. -/
theorem Prints.seq {left right : Mask} (firstPrints : Prints least first left)
    (secondPrints : Prints (least - left.length) second right) :
    Prints least (Writer.seq first second) (left ++ right) := by
  intro dest written count long run
  rcases seq_eq_ok run with ⟨half, done, rest, more, firstRun, room, secondRun, rfl, rfl⟩
  rcases firstPrints dest half done long firstRun with ⟨halfLength, rfl, printed⟩
  rw [halfLength] at room
  have half := printed room
  subst half
  rw [drop_overlay room] at secondRun
  have restLong : least - left.length ≤ (dest.drop left.length).length := by
    rw [List.length_drop]
    omega
  rcases secondPrints _ rest more restLong secondRun with ⟨restLength, rfl, restPrinted⟩
  rw [List.length_drop] at restLength restPrinted
  rw [take_overlay room, List.length_append, List.length_append, length_covered room, restLength]
  refine ⟨by omega, rfl, ?_⟩
  intro wholeRoom
  rw [overlay_append, restPrinted (by omega)]

end Prints

/-- The encoder has a mask, and it leaves an old byte in its output or not. -/
def Leaves {ε : Type} (least : ℕ) (writer : Writer ε) (hole : Prop) : Prop :=
  ∃ mask, Prints least writer mask ∧ (none ∈ mask ↔ hole)

section Leaves

variable {ε : Type} {least : ℕ} {first second : Writer ε} {hole other : Prop}

theorem Prints.leaves {bytes : Bytes} (prints : Prints least first (.full bytes)) :
    Leaves least first False := by
  refine ⟨_, prints, ?_⟩
  simp

theorem leaves_skip : Leaves least (Writer.skip : Writer ε) False := ⟨_, prints_skip, by simp⟩

theorem leaves_fail (reason : ε) : Leaves least (Writer.fail reason : Writer ε) hole := by
  by_cases holds : hole
  · exact ⟨[none], prints_fail reason, by simp [holds]⟩
  · exact ⟨[], prints_fail reason, by simp [holds]⟩

theorem Leaves.congr (leaves : Leaves least first hole) (same : hole ↔ other) :
    Leaves least first other := by
  rcases leaves with ⟨mask, prints, holes⟩
  exact ⟨mask, prints, holes.trans same⟩

theorem Leaves.mono {more : ℕ} (leaves : Leaves least first hole) (longer : least ≤ more) :
    Leaves more first hole := by
  rcases leaves with ⟨mask, prints, holes⟩
  exact ⟨mask, prints.mono longer, holes⟩

theorem Leaves.seq (left : Leaves least first hole) (right : Leaves 0 second other) :
    Leaves least (Writer.seq first second) (hole ∨ other) := by
  rcases left with ⟨front, frontPrints, frontHoles⟩
  rcases right with ⟨back, backPrints, backHoles⟩
  refine ⟨front ++ back, frontPrints.seq (backPrints.mono (Nat.zero_le _)), ?_⟩
  rw [List.mem_append, frontHoles, backHoles]

/-- An encoder that leaves nothing comes first. -/
theorem Leaves.behind (left : Leaves least first False) (right : Leaves 0 second hole) :
    Leaves least (Writer.seq first second) hole := by
  apply (left.seq right).congr
  simp

/-- An encoder that leaves nothing follows. -/
theorem Leaves.before (left : Leaves least first hole) (right : Leaves 0 second False) :
    Leaves least (Writer.seq first second) hole := by
  apply (left.seq right).congr
  simp

theorem Leaves.thenEach {α : Type} (start : Leaves least first hole) {encode : α → Writer ε}
    (element : ∀ item, Leaves 0 (encode item) False) (items : List α) :
    Leaves least (Writer.thenEach first encode items) hole := by
  induction items generalizing first with
  | nil => exact start
  | cons item items ih => exact ih (start.before (element item))

theorem Leaves.each {α : Type} {encode : α → Writer ε}
    (element : ∀ item, Leaves 0 (encode item) False) (items : List α) :
    Leaves least (Writer.each encode items) False := leaves_skip.thenEach element items

end Leaves

/-- What an encoder shows that copies more bytes behind its mask as far as there is room. -/
def Shows {ε : Type} (least : ℕ) (writer : Writer ε) (mask : Mask) (more : Bytes) : Prop :=
  ∀ dest written count, least ≤ dest.length → writer dest = .ok (written, count) →
    mask.length ≤ count ∧ count ≤ mask.length + more.length ∧
      (mask.length ≤ dest.length → ∀ place, place ≤ mask.length + more.length →
        place ≤ dest.length → written.take place = (covered mask dest ++ more).take place)

section Shows

variable {ε : Type} {least : ℕ} {first second third : Writer ε} {mask : Mask}

theorem Prints.shows (prints : Prints least first mask) : Shows least first mask [] := by
  intro dest written count long run
  rcases prints dest written count long run with ⟨-, rfl, printed⟩
  refine ⟨Nat.le_refl _, by simp, ?_⟩
  intro room place within _
  rw [List.length_nil, Nat.add_zero] at within
  rw [printed room, overlay, List.append_nil,
    List.take_append_of_le_length (by rw [length_covered room]; exact within)]

theorem Prints.shows_copy (prints : Prints least first mask) (more : Bytes) :
    Shows least (Writer.seq first (.copy more)) mask more := by
  intro dest written count long run
  rcases seq_eq_ok run with ⟨half, done, rest, copied, firstRun, room, copyRun, rfl, rfl⟩
  rcases prints dest half done long firstRun with ⟨length, rfl, printed⟩
  rw [length] at room
  have half := printed room
  subst half
  simp only [Writer.copy, Except.ok.injEq, Prod.mk.injEq] at copyRun
  rcases copyRun with ⟨rfl, rfl⟩
  refine ⟨by omega, by omega, ?_⟩
  intro _ place within fits
  have cut (tail : Bytes) : (covered mask dest ++ tail).take place =
      (covered mask dest).take place ++ tail.take (place - mask.length) := by
    rw [List.take_append, length_covered room]
  rw [take_overlay room, drop_overlay room, cut, cut, List.length_drop]
  congr 1
  rw [List.take_append_of_le_length, List.take_take]
  · congr 1
    omega
  · rw [List.length_take]
    omega

theorem seq_assoc : Writer.seq (Writer.seq first second) third =
    Writer.seq first (Writer.seq second third) := by
  funext dest
  simp only [Writer.seq]
  cases first dest with
  | error fault => rfl
  | ok result =>
      rcases result with ⟨half, done⟩
      by_cases room : done ≤ half.length
      · simp only [if_pos room]
        cases second (half.drop done) with
        | error fault => rfl
        | ok result =>
            rcases result with ⟨rest, count⟩
            have taken : (half.take done).length = done := List.length_take_of_le room
            have fits : done + count ≤ (half.take done ++ rest).length ↔ count ≤ rest.length := by
              rw [List.length_append, taken]
              omega
            have dropped : (half.take done ++ rest).drop (done + count) = rest.drop count := by
              rw [← List.drop_drop, List.drop_left' taken]
            have kept : (half.take done ++ rest).take (done + count) =
                half.take done ++ rest.take count := by
              rw [List.take_append, taken, List.take_of_length_le (by omega), Nat.add_sub_cancel_left]
            simp only [fits, dropped, kept]
            split
            · cases third (rest.drop count) with
              | error fault => rfl
              | ok result => simp [Nat.add_assoc]
            · rfl
      · simp only [if_neg room]

end Shows

/-- An encoder that succeeds on a slice does so on every longer one, and leaves at least as much of
it to the next encoder. -/
def Grows {ε : Type} (writer : Writer ε) : Prop :=
  ∀ dest other written count, dest.length ≤ other.length → writer dest = .ok (written, count) →
    ∃ again more, writer other = .ok (again, more) ∧ again.length = other.length ∧
      (count ≤ dest.length → more ≤ other.length ∧ dest.length - count ≤ other.length - more)

section Grows

variable {ε : Type} {first second : Writer ε}

theorem grows_skip : Grows (Writer.skip : Writer ε) := by
  intro dest other written count longer run
  simp only [Writer.skip, Except.ok.injEq, Prod.mk.injEq] at run
  refine ⟨other, 0, rfl, rfl, ?_⟩
  omega

theorem grows_fail (reason : ε) : Grows (Writer.fail reason : Writer ε) := by
  intro dest other written count longer run
  simp [Writer.fail] at run

theorem grows_put (bytes : Bytes) : Grows (Writer.put bytes : Writer ε) := by
  intro dest other written count longer run
  simp only [Writer.put] at run
  split at run
  · rename_i room
    simp only [Except.ok.injEq, Prod.mk.injEq] at run
    refine ⟨_, _, if_pos (by omega), ?_, by omega⟩
    rw [List.length_append, List.length_drop]
    omega
  · simp at run

theorem grows_copy (bytes : Bytes) : Grows (Writer.copy bytes : Writer ε) := by
  intro dest other written count longer run
  simp only [Writer.copy, Except.ok.injEq, Prod.mk.injEq] at run
  refine ⟨_, _, rfl, ?_, by omega⟩
  rw [List.length_append, List.length_take, List.length_drop]
  omega

theorem Grows.steady (grows : Grows first) : Steady first := by
  intro dest written count run
  rcases grows dest dest written count (Nat.le_refl _) run with ⟨again, more, same, length, -⟩
  rw [run, Except.ok.injEq, Prod.mk.injEq] at same
  rw [same.1, length]

theorem Grows.seq (left : Grows first) (right : Grows second) :
    Grows (Writer.seq first second) := by
  intro dest other written count longer run
  rcases seq_eq_ok run with ⟨half, done, rest, more, firstRun, room, secondRun, rfl, rfl⟩
  have halfLength := left.steady dest half done firstRun
  rcases left dest other half done longer firstRun with ⟨half', done', firstAgain, length, keeps⟩
  have kept := keeps (by omega)
  have restLonger : (half.drop done).length ≤ (half'.drop done').length := by
    rw [List.length_drop, List.length_drop]
    omega
  rcases right _ _ rest more restLonger secondRun with
    ⟨rest', more', secondAgain, restLength, restKeeps⟩
  rw [List.length_drop] at restLength
  rw [List.length_drop, List.length_drop] at restKeeps
  refine ⟨half'.take done' ++ rest', done' + more', ?_, ?_, by omega⟩
  · have fits : done' ≤ half'.length := by omega
    simp only [Writer.seq, firstAgain, if_pos fits, secondAgain]
  · rw [List.length_append, List.length_take, restLength]
    omega

theorem Grows.thenEach {α : Type} (start : Grows first) {encode : α → Writer ε}
    (element : ∀ item, Grows (encode item)) (items : List α) :
    Grows (Writer.thenEach first encode items) := by
  induction items generalizing first with
  | nil => exact start
  | cons item items ih => exact ih (start.seq (element item))

theorem Grows.each {α : Type} {encode : α → Writer ε} (element : ∀ item, Grows (encode item))
    (items : List α) : Grows (Writer.each encode items) := grows_skip.thenEach element items

end Grows

end Lib
