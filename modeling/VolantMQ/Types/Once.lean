import VolantMQ.Lib.Progress
import VolantMQ.Lib.Run
import VolantMQ.Lib.Threads

/-!
# Running a function once

`OnceWait.Do` runs the function of its first call, and every other call waits until that function
has returned. A session closes down its connection with it, from whichever goroutine comes first.

The steps below are those between which calls can be interrupted. A function may itself call `Do` on
the same object, and it may panic. `Do` has no deferred calls, so a panic takes a goroutine out of
all its calls of `Do` at once.
-/

namespace VolantMQ.Types

open Lib

/-- Where a call of `OnceWait.Do` is. -/
inductive Place where
  | lock
  /-- Before the compare-and-swap. -/
  | swap
  /-- Before `wait.Add`. -/
  | add
  | unlock (res : Bool)
  /-- In the function. -/
  | run
  /-- Before `wait.Done`. -/
  | done
  /-- Before `wait.Wait`. -/
  | wait
  deriving DecidableEq, Repr

/-- `types.OnceWait` with the goroutines that call `Do` on it. -/
structure OnceWait where
  val : Bool
  wait : ℕ
  lock : Bool
  /-- The calls of each goroutine, the innermost first. -/
  goroutines : List (List Place)
  /-- How often a function was started, has returned, and has panicked. -/
  started : ℕ
  finished : ℕ
  panicked : ℕ
  /-- The results of the calls that have returned. -/
  returned : List Bool

namespace OnceWait

def new : OnceWait := ⟨false, 0, false, [], 0, 0, 0, []⟩

/-- What can happen next. -/
inductive Op where
  /-- A goroutine calls `Do`. -/
  | call
  /-- A goroutine goes on. -/
  | go (i : ℕ)
  /-- The function that a goroutine runs calls `Do`. -/
  | nest (i : ℕ)
  /-- The function that a goroutine runs panics. -/
  | panic (i : ℕ)
  deriving DecidableEq, Repr

/-- The innermost call of a goroutine goes on. -/
def proceed (s : OnceWait) (i : ℕ) (rest : List Place) : Place → OnceWait
  | .lock =>
      if s.lock then s
      else { s with lock := true, goroutines := replaceAt s.goroutines i [.swap :: rest] }
  | .swap =>
      if s.val then { s with goroutines := replaceAt s.goroutines i [.unlock false :: rest] }
      else { s with val := true, goroutines := replaceAt s.goroutines i [.add :: rest] }
  | .add =>
      { s with
        wait := s.wait + 1
        goroutines := replaceAt s.goroutines i [.unlock true :: rest] }
  | .unlock true =>
      { s with
        lock := false
        started := s.started + 1
        goroutines := replaceAt s.goroutines i [.run :: rest] }
  | .unlock false =>
      { s with lock := false, goroutines := replaceAt s.goroutines i [.wait :: rest] }
  | .run =>
      { s with
        finished := s.finished + 1
        goroutines := replaceAt s.goroutines i [.done :: rest] }
  | .done =>
      { s with
        wait := s.wait - 1
        returned := s.returned ++ [true]
        goroutines := replaceAt s.goroutines i [rest] }
  | .wait =>
      if s.wait = 0 then
        { s with
          returned := s.returned ++ [false]
          goroutines := replaceAt s.goroutines i [rest] }
      else s

/-- One step. A goroutine that does not exist does nothing. -/
def step (s : OnceWait) : Op → OnceWait
  | .call => { s with goroutines := s.goroutines ++ [[.lock]] }
  | .go i =>
      match s.goroutines[i]? with
      | some (place :: rest) => s.proceed i rest place
      | _ => s
  | .nest i =>
      match s.goroutines[i]? with
      | some (.run :: rest) =>
          { s with goroutines := replaceAt s.goroutines i [.lock :: .run :: rest] }
      | _ => s
  | .panic i =>
      match s.goroutines[i]? with
      | some (.run :: _) =>
          { s with
            panicked := s.panicked + 1
            goroutines := replaceAt s.goroutines i [[]] }
      | _ => s

/-- The number of calls that are at a place. -/
def placed (goroutines : List (List Place)) (place : Place) : ℕ :=
  (goroutines.map (List.count place)).sum

/-- What holds at all times. -/
structure Inv (s : OnceWait) : Prop where
  /-- The lock has one owner. -/
  locked : placed s.goroutines .swap + placed s.goroutines .add +
    placed s.goroutines (.unlock true) + placed s.goroutines (.unlock false) =
      if s.lock then 1 else 0
  /-- One call wins the compare-and-swap. -/
  won : placed s.goroutines .add + placed s.goroutines (.unlock true) + placed s.goroutines .run +
    placed s.goroutines .done + s.returned.count true + s.panicked = if s.val then 1 else 0
  counted : s.wait = placed s.goroutines (.unlock true) + placed s.goroutines .run +
    placed s.goroutines .done + s.panicked
  begun : s.started = placed s.goroutines .run + placed s.goroutines .done +
    s.returned.count true + s.panicked
  ended : s.finished = placed s.goroutines .done + s.returned.count true
  /-- When a call has lost, the winner has set the counter. -/
  lost : 0 < placed s.goroutines (.unlock false) + placed s.goroutines .wait + s.returned.length →
    placed s.goroutines (.unlock true) + placed s.goroutines .run + placed s.goroutines .done +
      s.returned.count true + s.panicked = 1
  first : 0 < s.returned.length → s.returned.count true = 1
  /-- Below its innermost call a goroutine is in functions. -/
  nested : ∀ calls ∈ s.goroutines, ∀ place ∈ calls.tail, place = .run

section Step

variable {goroutines : List (List Place)} {i : ℕ} {old : Place} {rest : List Place}

theorem placed_replaceAt {calls : List Place} (here : goroutines[i]? = some calls)
    (places : List Place) (place : Place) :
    placed (replaceAt goroutines i [places]) place + calls.count place =
      placed goroutines place + places.count place := by
  have whole := sum_replaceAt here [places] (List.count place)
  rwa [List.map_singleton, List.sum_singleton] at whole

theorem count_le_placed {calls : List Place} (member : calls ∈ goroutines) (place : Place) :
    calls.count place ≤ placed goroutines place := by
  rcases List.getElem?_of_mem member with ⟨i, here⟩
  have whole := sum_replaceAt here [] (List.count place)
  rw [List.map_nil, List.sum_nil] at whole
  unfold placed
  omega

theorem placed_pos (here : goroutines[i]? = some (old :: rest)) : 0 < placed goroutines old := by
  have bound := count_le_placed (List.mem_of_getElem? here) old
  rw [List.count_cons_self] at bound
  omega

/-- A call moves to another place. -/
theorem placed_move (here : goroutines[i]? = some (old :: rest)) (new place : Place) :
    placed (replaceAt goroutines i [new :: rest]) place =
      placed goroutines place - (if old = place then 1 else 0) + if new = place then 1 else 0 := by
  have whole := placed_replaceAt here (new :: rest) place
  have present := placed_pos here
  simp only [List.count_cons, beq_iff_eq] at whole
  by_cases same : old = place
  · subst same
    simp only [if_true] at whole ⊢
    omega
  · simp only [if_neg same] at whole ⊢
    omega

/-- A call returns. -/
theorem placed_pop (here : goroutines[i]? = some (old :: rest)) (place : Place) :
    placed (replaceAt goroutines i [rest]) place =
      placed goroutines place - if old = place then 1 else 0 := by
  have whole := placed_replaceAt here rest place
  simp only [List.count_cons, beq_iff_eq] at whole
  omega

/-- Below the innermost call nothing changes. -/
theorem nested_replaceAt (nested : ∀ calls ∈ goroutines, ∀ place ∈ calls.tail, place = .run)
    {places : List Place} (tail : ∀ place ∈ places.tail, place = .run) :
    ∀ calls ∈ replaceAt goroutines i [places], ∀ place ∈ calls.tail, place = .run := by
  intro calls member
  rcases mem_replaceAt member with new | old
  · rw [List.mem_singleton] at new
    rw [new]
    exact tail
  · exact nested calls old

theorem inv_new : new.Inv := by
  refine ⟨rfl, rfl, rfl, rfl, rfl, ?_, ?_, ?_⟩ <;> simp [new, placed]

theorem Inv.proceed {s : OnceWait} (inv : s.Inv)
    (here : s.goroutines[i]? = some (old :: rest)) : (s.proceed i rest old).Inv := by
  have present := placed_pos here
  have tail : ∀ other ∈ rest, other = Place.run := inv.nested _ (List.mem_of_getElem? here)
  have below := @nested_replaceAt s.goroutines i inv.nested rest fun place member =>
    tail place (List.mem_of_mem_tail member)
  have same := fun new => @nested_replaceAt s.goroutines i inv.nested (new :: rest) tail
  have single : (if s.lock then 1 else 0) ≤ 1 := by split <;> omega
  have unique : (if s.val then 1 else 0) ≤ 1 := by split <;> omega
  rcases inv with ⟨locked, won, counted, begun, ended, lost, first, nested⟩
  rcases old with _ | _ | _ | (_ | _) | _ | _ | _
  · simp only [OnceWait.proceed]
    split
    · exact ⟨locked, won, counted, begun, ended, lost, first, nested⟩
    · rename_i free
      rw [if_neg free] at locked
      refine ⟨?_, ?_, ?_, ?_, ?_, ?_, ?_, same _⟩
      all_goals simp only [placed_move here, reduceCtorEq, if_false, if_true]
      all_goals omega
  · simp only [OnceWait.proceed]
    split
    · rename_i set
      have one : (if s.val then 1 else 0) = 1 := if_pos set
      refine ⟨?_, ?_, ?_, ?_, ?_, ?_, ?_, same _⟩
      all_goals simp only [placed_move here, reduceCtorEq, if_false, if_true, Place.unlock.injEq]
      all_goals omega
    · rename_i unset
      rw [if_neg unset] at won
      refine ⟨?_, ?_, ?_, ?_, ?_, ?_, ?_, same _⟩
      all_goals simp only [placed_move here, reduceCtorEq, if_false, if_true]
      all_goals omega
  · simp only [OnceWait.proceed]
    refine ⟨?_, ?_, ?_, ?_, ?_, ?_, ?_, same _⟩
    all_goals simp only [placed_move here, reduceCtorEq, if_false, if_true, Place.unlock.injEq]
    all_goals omega
  · simp only [OnceWait.proceed]
    refine ⟨?_, ?_, ?_, ?_, ?_, ?_, ?_, same _⟩
    all_goals simp only [placed_move here, reduceCtorEq, if_false, if_true, Place.unlock.injEq,
      Bool.false_eq_true]
    all_goals omega
  · simp only [OnceWait.proceed]
    refine ⟨?_, ?_, ?_, ?_, ?_, ?_, ?_, same _⟩
    all_goals simp only [placed_move here, reduceCtorEq, if_false, if_true, Place.unlock.injEq,
      Bool.false_eq_true, Bool.true_eq_false]
    all_goals omega
  · simp only [OnceWait.proceed]
    refine ⟨?_, ?_, ?_, ?_, ?_, ?_, ?_, same _⟩
    all_goals simp only [placed_move here, reduceCtorEq, if_false, if_true]
    all_goals omega
  · simp only [OnceWait.proceed]
    refine ⟨?_, ?_, ?_, ?_, ?_, ?_, ?_, below⟩
    all_goals simp only [placed_pop here, reduceCtorEq, if_false, if_true, List.count_append,
      List.count_singleton_self, List.length_append, List.length_singleton]
    all_goals omega
  · simp only [OnceWait.proceed]
    split
    · refine ⟨?_, ?_, ?_, ?_, ?_, ?_, ?_, below⟩
      all_goals simp only [placed_pop here, reduceCtorEq, if_false, if_true, List.count_append,
        List.count_singleton, List.length_append, List.length_singleton, Bool.false_eq_true,
        beq_iff_eq]
      all_goals omega
    · exact ⟨locked, won, counted, begun, ended, lost, first, nested⟩

/-- Where the function runs, it is the innermost call. -/
theorem Inv.rest_eq_nil {s : OnceWait} (inv : s.Inv)
    (here : s.goroutines[i]? = some (.run :: rest)) : rest = [] := by
  have whole := placed_replaceAt here [] .run
  have unique : (if s.val then 1 else 0) ≤ 1 := by split <;> omega
  have won := inv.won
  rw [List.count_cons_self, List.count_nil] at whole
  rcases rest with _ | ⟨place, rest⟩
  · rfl
  · have isRun : place = .run := inv.nested _ (List.mem_of_getElem? here) place List.mem_cons_self
    rw [isRun, List.count_cons_self] at whole
    omega

theorem Inv.step {s : OnceWait} (inv : s.Inv) (op : Op) : (s.step op).Inv := by
  cases op with
  | call =>
      have grown : ∀ place, placed (s.goroutines ++ [[.lock]]) place =
          placed s.goroutines place + if Place.lock = place then 1 else 0 := by
        intro place
        simp [placed, List.count_singleton]
      rcases inv with ⟨locked, won, counted, begun, ended, lost, first, nested⟩
      simp only [OnceWait.step]
      refine ⟨?_, ?_, ?_, ?_, ?_, ?_, ?_, ?_⟩
      · simpa [grown] using locked
      · simpa [grown] using won
      · simpa [grown] using counted
      · simpa [grown] using begun
      · simpa [grown] using ended
      · simpa [grown] using lost
      · exact first
      · intro calls member
        rcases List.mem_append.mp member with old | new
        · exact nested calls old
        · rw [List.mem_singleton] at new
          simp [new]
  | go i =>
      simp only [OnceWait.step]
      split
      · rename_i here
        exact inv.proceed here
      · exact inv
  | nest i =>
      simp only [OnceWait.step]
      split
      · rename_i rest here
        have pushed : ∀ place, placed (replaceAt s.goroutines i [.lock :: .run :: rest]) place =
            placed s.goroutines place + if Place.lock = place then 1 else 0 := by
          intro place
          have whole := placed_replaceAt here (.lock :: .run :: rest) place
          simp only [List.count_cons, beq_iff_eq] at whole
          omega
        have tail : ∀ place ∈ (Place.lock :: .run :: rest).tail, place = .run := by
          rw [inv.rest_eq_nil here]
          simp
        have nested := @nested_replaceAt s.goroutines i inv.nested _ tail
        rcases inv with ⟨locked, won, counted, begun, ended, lost, first, -⟩
        refine ⟨?_, ?_, ?_, ?_, ?_, ?_, first, nested⟩
        · simpa [pushed] using locked
        · simpa [pushed] using won
        · simpa [pushed] using counted
        · simpa [pushed] using begun
        · simpa [pushed] using ended
        · simpa [pushed] using lost
      · exact inv
  | panic i =>
      simp only [OnceWait.step]
      split
      · rename_i rest here
        have alone := inv.rest_eq_nil here
        subst alone
        have present := placed_pos here
        have nested := @nested_replaceAt s.goroutines i inv.nested [] (by simp)
        rcases inv with ⟨locked, won, counted, begun, ended, lost, first, -⟩
        refine ⟨?_, ?_, ?_, ?_, ?_, ?_, first, nested⟩
        all_goals simp only [placed_pop here, reduceCtorEq, if_false, if_true]
        all_goals omega
      · exact inv

end Step

/-- What is known of every run. -/
theorem inv_run (ops : List Op) : (ops.foldl step new).Inv :=
  invariant_run Inv (fun _ op inv => inv.step op) inv_new ops

/-- In every run at most one function is started and at most one call returns `true`. When a call
has returned, that function has come to its end. -/
theorem runs_once (ops : List Op) :
    (ops.foldl step new).started ≤ 1 ∧ (ops.foldl step new).returned.count true ≤ 1 ∧
      ((ops.foldl step new).returned ≠ [] →
        (ops.foldl step new).started = 1 ∧ (ops.foldl step new).finished = 1 ∧
          (ops.foldl step new).returned.count true = 1 ∧
          ∀ calls ∈ (ops.foldl step new).goroutines, Place.run ∉ calls) := by
  generalize reached : ops.foldl step new = s
  have inv : s.Inv := reached ▸ inv_run ops
  rcases inv with ⟨-, won, -, begun, ended, -, first, -⟩
  have unique : (if s.val then 1 else 0) ≤ 1 := by split <;> omega
  refine ⟨by omega, by omega, ?_⟩
  intro some_
  have one := first (List.length_pos_iff.mpr some_)
  refine ⟨by omega, by omega, one, ?_⟩
  intro calls member running
  have some_ := List.count_pos_iff.mpr running
  have bound := count_le_placed member .run
  omega

/-- The function has called `Do`, or has panicked. -/
def Blocked (s : OnceWait) : Prop :=
  0 < s.panicked ∨ ∃ calls ∈ s.goroutines, ∃ place rest, calls = place :: .run :: rest

section Blocked

variable {s : OnceWait}

theorem Blocked.unfinished (blocked : s.Blocked) (inv : s.Inv) :
    s.returned = [] ∧ 0 < s.panicked + placed s.goroutines .run := by
  have pending : 0 < s.panicked + placed s.goroutines .run := by
    rcases blocked with panicked | ⟨calls, member, place, rest, rfl⟩
    · omega
    · have bound := count_le_placed member .run
      rw [List.count_cons, List.count_cons_self] at bound
      omega
  have unique : (if s.val then 1 else 0) ≤ 1 := by split <;> omega
  have won := inv.won
  refine ⟨?_, pending⟩
  by_contra some_
  have one := inv.first (List.length_pos_iff.mpr some_)
  omega

/-- The innermost call of a goroutine moves, and the calls around it stay. -/
theorem Blocked.move (blocked : s.Blocked) {i : ℕ} {old : Place} {rest : List Place}
    (here : s.goroutines[i]? = some (old :: rest)) (new : Place) :
    0 < s.panicked ∨ ∃ calls ∈ replaceAt s.goroutines i [new :: rest],
      ∃ place rest, calls = place :: Place.run :: rest := by
  rcases blocked with panicked | ⟨calls, member, place, below, shape⟩
  · exact .inl panicked
  · right
    by_cases same : calls = old :: rest
    · rw [shape, List.cons.injEq] at same
      refine ⟨new :: rest, mem_replaceAt_of_mem here List.mem_cons_self, new, below, ?_⟩
      rw [same.2]
    · exact ⟨calls, mem_replaceAt_of_ne here _ member same, place, below, shape⟩

/-- The function never returns, so the counter is never zero. -/
theorem Blocked.proceed (blocked : s.Blocked) (inv : s.Inv) {i : ℕ} {old : Place}
    {rest : List Place} (here : s.goroutines[i]? = some (old :: rest)) :
    (s.proceed i rest old).Blocked := by
  have pending := (blocked.unfinished inv).2
  have counted := inv.counted
  have won := inv.won
  have unique : (if s.val then 1 else 0) ≤ 1 := by split <;> omega
  have present := placed_pos here
  rcases old with _ | _ | _ | (_ | _) | _ | _ | _
  · simp only [OnceWait.proceed]
    split
    · exact blocked
    · exact blocked.move here .swap
  · simp only [OnceWait.proceed]
    split
    · exact blocked.move here (.unlock false)
    · exact blocked.move here .add
  · exact blocked.move here (.unlock true)
  · exact blocked.move here .wait
  · exact blocked.move here .run
  · exact blocked.move here .done
  · omega
  · simp only [OnceWait.proceed]
    rw [if_neg (by omega)]
    exact blocked

theorem Blocked.step (blocked : s.Blocked) (inv : s.Inv) (op : Op) : (s.step op).Blocked := by
  cases op with
  | call =>
      rcases blocked with panicked | ⟨calls, member, shape⟩
      · exact .inl panicked
      · exact .inr ⟨calls, List.mem_append_left _ member, shape⟩
  | go i =>
      simp only [OnceWait.step]
      split
      · rename_i here
        exact blocked.proceed inv here
      · exact blocked
  | nest i =>
      simp only [OnceWait.step]
      split
      · rename_i rest here
        exact .inr ⟨_, mem_replaceAt_of_mem here List.mem_cons_self, .lock, rest, rfl⟩
      · exact blocked
  | panic i =>
      simp only [OnceWait.step]
      split
      · exact .inl (Nat.succ_pos _)
      · exact blocked

end Blocked

/-- If the function calls `Do` on the same object, or panics, no call ever returns. -/
theorem never_returns (ops later : List Op) {i : ℕ} {rest : List Place}
    (runs : (ops.foldl step new).goroutines[i]? = some (.run :: rest)) {op : Op}
    (fault : op = .nest i ∨ op = .panic i) :
    ((ops ++ op :: later).foldl step new).returned = [] := by
  have inv := inv_run ops
  rw [List.foldl_append, List.foldl_cons]
  generalize ops.foldl step new = s at inv runs
  have blocked : (s.step op).Blocked := by
    rcases fault with rfl | rfl
    · simp only [step, runs]
      exact .inr ⟨_, mem_replaceAt_of_mem runs List.mem_cons_self, .lock, rest, rfl⟩
    · simp only [step, runs]
      exact .inl (Nat.succ_pos _)
  have always := invariant_run (fun s => Inv s ∧ Blocked s)
    (fun s op both => ⟨both.1.step op, both.2.step both.1 op⟩) ⟨inv.step op, blocked⟩ later
  exact (always.2.unfinished always.1).1

/-- The first call calls `Do` again, while a second call waits. -/
theorem never_returns_nested : (([Op.call, .go 0, .go 0, .go 0, .go 0] ++ Op.nest 0 ::
    [.call, .go 1, .go 1, .go 1, .go 1, .go 0, .go 0]).foldl step new).returned = [] :=
  never_returns _ _ rfl (.inl rfl)

/-- How far a call is from its end. -/
def cost : Place → ℕ
  | .lock => 6
  | .swap => 5
  | .add => 4
  | .unlock _ => 3
  | .run => 2
  | .done => 1
  | .wait => 1

def weight (s : OnceWait) : ℕ := (s.goroutines.map fun calls => (calls.map cost).sum).sum

/-- No function has called `Do` or panicked, and so many calls were made. -/
structure Calm (made : ℕ) (s : OnceWait) : Prop where
  inv : s.Inv
  quiet : s.panicked = 0
  flat : ∀ calls ∈ s.goroutines, calls.length ≤ 1
  total : made = s.returned.length + (s.goroutines.map List.length).sum

section Calm

variable {s : OnceWait} {made i : ℕ}

/-- Why a call cannot go on. -/
def Waits (s : OnceWait) (place : Place) : Prop :=
  place = .lock ∧ s.lock = true ∨ place = .wait ∧ s.wait ≠ 0

/-- What a step does to a goroutine that is in a single call: the call moves on or returns. -/
structure Advances (s next : OnceWait) (i : ℕ) (place : Place) (calls : List Place) : Prop where
  quiet : next.panicked = s.panicked
  short : calls.length ≤ 1
  nearer : (calls.map cost).sum < cost place
  total : next.returned.length + calls.length = s.returned.length + 1
  moved : next.goroutines = replaceAt s.goroutines i [calls]

theorem proceed_cases (s : OnceWait) (i : ℕ) (place : Place) :
    (s.proceed i [] place = s ∧ s.Waits place) ∨
      ∃ calls, Advances s (s.proceed i [] place) i place calls := by
  rcases place with _ | _ | _ | (_ | _) | _ | _ | _
  · simp only [proceed]
    split
    · rename_i taken
      exact .inl ⟨rfl, .inl ⟨rfl, taken⟩⟩
    · exact .inr ⟨[.swap], rfl, le_rfl, by decide, rfl, rfl⟩
  · simp only [proceed]
    split
    · exact .inr ⟨[.unlock false], rfl, le_rfl, by decide, rfl, rfl⟩
    · exact .inr ⟨[.add], rfl, le_rfl, by decide, rfl, rfl⟩
  · exact .inr ⟨[.unlock true], rfl, le_rfl, by decide, rfl, rfl⟩
  · exact .inr ⟨[.wait], rfl, le_rfl, by decide, rfl, rfl⟩
  · exact .inr ⟨[.run], rfl, le_rfl, by decide, rfl, rfl⟩
  · exact .inr ⟨[.done], rfl, le_rfl, by decide, rfl, rfl⟩
  · exact .inr ⟨[], rfl, Nat.zero_le _, by decide, List.length_append, rfl⟩
  · simp only [proceed]
    split
    · exact .inr ⟨[], rfl, Nat.zero_le _, by decide, List.length_append, rfl⟩
    · rename_i held
      exact .inl ⟨rfl, .inr ⟨rfl, held⟩⟩

theorem Calm.go_cases (calm : Calm made s) (i : ℕ) :
    (s.step (.go i) = s ∧ ∀ place rest, s.goroutines[i]? = some (place :: rest) → s.Waits place) ∨
      ∃ place calls, s.goroutines[i]? = some [place] ∧
        Advances s (s.step (.go i)) i place calls := by
  simp only [step]
  split
  · rename_i place rest here
    have short := calm.flat _ (List.mem_of_getElem? here)
    rw [List.length_cons] at short
    have alone : rest = [] := List.length_eq_zero_iff.mp (by omega)
    subst alone
    rcases proceed_cases s i place with ⟨same, waits⟩ | ⟨calls, advances⟩
    · refine .inl ⟨same, ?_⟩
      intro other rest there
      rw [here, Option.some.injEq, List.cons.injEq] at there
      exact there.1 ▸ waits
    · exact .inr ⟨place, calls, here, advances⟩
  · rename_i none
    exact .inl ⟨rfl, fun place rest here => absurd here (none place rest)⟩

theorem Calm.go (calm : Calm made s) (i : ℕ) : Calm made (s.step (.go i)) := by
  have inv := calm.inv.step (.go i)
  rcases calm.go_cases i with ⟨same, -⟩ | ⟨place, calls, here, advances⟩
  · rw [same]
    exact calm
  · have total := sum_replaceAt here [calls] List.length
    have before := calm.total
    have after := advances.total
    refine ⟨inv, advances.quiet.trans calm.quiet, ?_, ?_⟩
    · intro other member
      rw [advances.moved] at member
      rcases mem_replaceAt member with isNew | old
      · rw [List.mem_singleton.mp isNew]
        exact advances.short
      · exact calm.flat other old
    · rw [advances.moved]
      simp only [List.map_singleton, List.sum_singleton, List.length_singleton] at total
      omega

theorem Calm.call (calm : Calm made s) : Calm (made + 1) (s.step .call) := by
  refine ⟨calm.inv.step .call, calm.quiet, ?_, ?_⟩
  · intro calls member
    rcases List.mem_append.mp member with old | new
    · exact calm.flat calls old
    · simp [List.mem_singleton.mp new]
  · have before := calm.total
    simp only [step, List.map_append, List.map_singleton, List.sum_append, List.sum_singleton,
      List.length_singleton]
    omega

/-- A goroutine that goes on comes nearer to its end. -/
theorem Calm.weight_lt (calm : Calm made s) (i : ℕ) :
    s.step (.go i) = s ∨ (s.step (.go i)).weight < s.weight := by
  rcases calm.go_cases i with ⟨same, -⟩ | ⟨place, calls, here, advances⟩
  · exact .inl same
  · right
    have total := sum_replaceAt here [calls] fun calls => (calls.map cost).sum
    have nearer := advances.nearer
    unfold weight
    rw [advances.moved]
    simp only [List.map_singleton, List.sum_singleton] at total
    omega

theorem Calm.waits_of_rests (calm : Calm made s) (rests : Rests (fun s i => s.step (.go i)) s)
    {calls : List Place} (member : calls ∈ s.goroutines) {place : Place} (here : place ∈ calls) :
    s.Waits place := by
  rcases List.getElem?_of_mem member with ⟨i, there⟩
  have short := calm.flat calls member
  have shape : calls = [place] := by
    rcases calls with _ | ⟨first, _ | ⟨second, rest⟩⟩
    · simp at here
    · rw [List.mem_singleton.mp here]
    · simp at short
  rw [shape] at there
  rcases calm.go_cases i with ⟨-, blocked⟩ | ⟨other, calls, at_, advances⟩
  · exact blocked place [] there
  · have same : s.step (.go i) = s := rests i
    have nearer := advances.nearer
    have total := sum_replaceAt at_ [calls] fun calls => (calls.map cost).sum
    rw [← advances.moved, same] at total
    simp only [List.map_singleton, List.sum_singleton] at total
    omega

/-- Where no goroutine can go on, all calls have returned. -/
theorem Calm.ended_of_rests (calm : Calm made s) (rests : Rests (fun s i => s.step (.go i)) s) :
    ∀ calls ∈ s.goroutines, calls = [] := by
  have nobody : ∀ place, ¬s.Waits place → placed s.goroutines place = 0 := by
    intro place goes
    have none : ∀ calls ∈ s.goroutines, calls.count place = 0 := by
      intro calls member
      apply List.count_eq_zero_of_not_mem
      intro here
      exact goes (calm.waits_of_rests rests member here)
    apply List.sum_eq_zero_iff_forall_eq_nat.mpr
    simpa using none
  have noSwap := nobody .swap (by simp [Waits])
  have noAdd := nobody .add (by simp [Waits])
  have noUnlock := fun res => nobody (.unlock res) (by simp [Waits])
  have noRun := nobody .run (by simp [Waits])
  have noDone := nobody .done (by simp [Waits])
  have locked := calm.inv.locked
  have counted := calm.inv.counted
  have quiet := calm.quiet
  rw [noSwap, noAdd, noUnlock, noUnlock] at locked
  rw [noUnlock, noRun, noDone] at counted
  have free : s.lock = false := by
    by_contra taken
    rw [if_pos (by simpa using taken)] at locked
    omega
  -- the two places at which a call can wait are open
  intro calls member
  rcases calls with _ | ⟨place, rest⟩
  · rfl
  · rcases calm.waits_of_rests rests member List.mem_cons_self with ⟨-, taken⟩ | ⟨-, held⟩
    · simp [free] at taken
    · omega

theorem calm_new : Calm 0 new := ⟨inv_new, rfl, by simp [new], rfl⟩

theorem Calm.run (calm : Calm made s) {ops : List Op}
    (plain : ∀ op ∈ ops, op = .call ∨ ∃ i, op = .go i) :
    Calm (made + ops.count .call) (ops.foldl step s) := by
  induction ops generalizing s made with
  | nil => exact calm
  | cons op ops ih =>
      have later := fun other member => plain other (List.mem_cons_of_mem op member)
      rcases plain op List.mem_cons_self with rfl | ⟨i, rfl⟩
      · have more := ih calm.call later
        rw [List.count_cons_self, Nat.add_comm (ops.count _), ← Nat.add_assoc]
        exact more
      · rw [List.count_cons_of_ne (by simp)]
        exact ih (calm.go i) later

end Calm

/-- Calls whose functions neither panic nor call `Do` all return, under every fair schedule of the
goroutines, and then the function of one of them was run. -/
theorem all_return {ops : List Op} (plain : ∀ op ∈ ops, op = .call ∨ ∃ i, op = .go i)
    {schedule : ℕ → ℕ} (fair : Fair schedule) :
    ∃ n, ∃ s, s = stateAt (fun s i => step s (.go i)) schedule (ops.foldl step new) n ∧
      s.returned.length = ops.count .call ∧ (∀ calls ∈ s.goroutines, calls = []) ∧
      (0 < ops.count .call → s.finished = 1 ∧ s.returned.count true = 1) := by
  have calm := calm_new.run plain
  rw [Nat.zero_add] at calm
  rcases exists_rests (Calm (ops.count .call)) (fun s i calm => calm.go i) weight
    (fun s i calm => calm.weight_lt i) calm fair with ⟨n, rests⟩
  have last := stateAt_invariant (Calm (ops.count .call)) (fun s i calm => calm.go i) calm schedule n
  refine ⟨n, _, rfl, ?_⟩
  generalize stateAt _ _ _ n = s at rests last
  have ended := last.ended_of_rests rests
  have nothing : (s.goroutines.map List.length).sum = 0 := by
    apply List.sum_eq_zero_iff_forall_eq_nat.mpr
    simpa using ended
  have total := last.total
  have done : placed s.goroutines .done = 0 := by
    apply List.sum_eq_zero_iff_forall_eq_nat.mpr
    intro count member
    rcases List.mem_map.mp member with ⟨calls, there, rfl⟩
    rw [ended calls there, List.count_nil]
  refine ⟨by omega, ended, ?_⟩
  intro some_
  have one := last.inv.first (by omega)
  have finished := last.inv.ended
  exact ⟨by omega, one⟩

theorem all_return_two : ∃ n, ∃ s, s = stateAt (fun s i => step s (.go i)) (fun n => n.unpair.1)
      ([.call, .go 0, .call].foldl step new) n ∧
    s.returned.length = 2 ∧ s.finished = 1 ∧ s.returned.count true = 1 := by
  have plain : ∀ op ∈ [Op.call, .go 0, .call], op = .call ∨ ∃ i, op = .go i := by simp
  rcases all_return plain fair_unpair with ⟨n, s, reached, length, -, ends⟩
  exact ⟨n, s, reached, length, ends (by decide)⟩

end OnceWait

end VolantMQ.Types
