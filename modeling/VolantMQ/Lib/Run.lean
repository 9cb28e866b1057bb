import Mathlib.Logic.Basic

/-!
# Runs of a state machine

A machine is a step function on states and inputs, and a run is a fold of it. `Along` says that
every step of a run meets a condition on its input and the state before it. The rules below carry
an invariant through a run and turn a property that each step either keeps or breaks into a
condition on the steps.

A loop of a program may go on forever. `Ends` says that it does not, and with what result.
-/

namespace Lib

variable {σ ι : Type} {step : σ → ι → σ}

/-- Every step of the run from `s` meets the condition. -/
def Along (step : σ → ι → σ) (fine : σ → ι → Prop) : σ → List ι → Prop
  | _, [] => True
  | s, input :: inputs => fine s input ∧ Along step fine (step s input) inputs

theorem along_append (fine : σ → ι → Prop) (s : σ) (first second : List ι) :
    Along step fine s (first ++ second) ↔
      Along step fine s first ∧ Along step fine (first.foldl step s) second := by
  induction first generalizing s with
  | nil => simp [Along]
  | cons input first ih =>
      simp only [List.cons_append, Along, ih, List.foldl_cons, and_assoc]

/-- The beginning of such a run. -/
theorem Along.take {fine : σ → ι → Prop} {s : σ} {inputs : List ι}
    (along : Along step fine s inputs) (n : Nat) : Along step fine s (inputs.take n) := by
  rw [← List.take_append_drop n inputs] at along
  exact ((along_append _ _ _ _).mp along).1

theorem along_of_forall {fine : σ → ι → Prop} {inputs : List ι}
    (all : ∀ input ∈ inputs, ∀ s, fine s input) (s : σ) : Along step fine s inputs := by
  induction inputs generalizing s with
  | nil => trivial
  | cons input inputs ih =>
      exact ⟨all input List.mem_cons_self s,
        ih (fun other member => all other (List.mem_cons_of_mem input member)) _⟩

/-- A condition on the inputs alone. -/
theorem along_iff_forall {fine : ι → Prop} (s : σ) (inputs : List ι) :
    Along step (fun _ input => fine input) s inputs ↔ ∀ input ∈ inputs, fine input := by
  induction inputs generalizing s with
  | nil => simp [Along]
  | cons input inputs ih => simp [Along, ih]

/-- What every step keeps holds at the end of every run. -/
theorem invariant_run (inv : σ → Prop) (keeps : ∀ s input, inv s → inv (step s input)) {s : σ}
    (start : inv s) (inputs : List ι) : inv (inputs.foldl step s) := by
  induction inputs generalizing s with
  | nil => exact start
  | cons input inputs ih => exact ih (keeps s input start)

/-- What every step that meets the condition keeps holds at the end of a run of such steps. -/
theorem Along.invariant {fine : σ → ι → Prop} (inv : σ → Prop)
    (keeps : ∀ s input, inv s → fine s input → inv (step s input)) {s : σ} (start : inv s)
    {inputs : List ι} (along : Along step fine s inputs) : inv (inputs.foldl step s) := by
  induction inputs generalizing s with
  | nil => exact start
  | cons input inputs ih => exact ih (keeps s input start along.1) along.2

/-- The same at all times of the run. -/
theorem Along.always {fine : σ → ι → Prop} (inv : σ → Prop)
    (keeps : ∀ s input, inv s → fine s input → inv (step s input)) {s : σ} (start : inv s)
    {inputs : List ι} (along : Along step fine s inputs) (n : Nat) :
    inv ((inputs.take n).foldl step s) :=
  (along.take n).invariant inv keeps start

/-- What every input of a run keeps holds at its end. -/
theorem invariant_of_mem (inv : σ → Prop) {inputs : List ι}
    (keeps : ∀ input ∈ inputs, ∀ s, inv s → inv (step s input)) {s : σ} (start : inv s) :
    inv (inputs.foldl step s) := by
  have along : Along step (fun _ input => ∀ s, inv s → inv (step s input)) s inputs :=
    along_of_forall (fun input member _ => keeps input member) s
  exact along.invariant inv (fun s _ before kept => kept s before) start

/-- A property that a step keeps exactly when it meets the condition holds at the end of a run
exactly when all its steps do. -/
theorem run_iff_along {fine : σ → ι → Prop} (inv ok : σ → Prop)
    (keeps : ∀ s input, inv s → inv (step s input))
    (exact : ∀ s input, inv s → (ok (step s input) ↔ ok s ∧ fine s input)) {s : σ}
    (start : inv s) (inputs : List ι) :
    ok (inputs.foldl step s) ↔ ok s ∧ Along step fine s inputs := by
  induction inputs generalizing s with
  | nil => simp [Along]
  | cons input inputs ih =>
      rw [List.foldl_cons, ih (keeps s input start), exact s input start, and_assoc]
      rfl

/-- A property that a step keeps exactly when it meets the condition holds at all times of a run
exactly when all its steps do. Here the step may assume that the property held before it. -/
theorem always_iff_along {fine : σ → ι → Prop} (inv ok : σ → Prop)
    (keeps : ∀ s input, inv s → inv (step s input))
    (exact : ∀ s input, inv s → ok s → (ok (step s input) ↔ fine s input)) {s : σ}
    (start : inv s) (inputs : List ι) :
    (∀ n, ok ((inputs.take n).foldl step s)) ↔ ok s ∧ Along step fine s inputs := by
  induction inputs generalizing s with
  | nil => simp [Along]
  | cons input inputs ih =>
      have split : (∀ n, ok (((input :: inputs).take n).foldl step s)) ↔
          ok s ∧ ∀ n, ok ((inputs.take n).foldl step (step s input)) := by
        constructor
        · exact fun all => ⟨all 0, fun n => all (n + 1)⟩
        · rintro ⟨here, later⟩ n
          cases n with
          | zero => exact here
          | succ n => exact later n
      rw [split, ih (keeps s input start), Along]
      refine and_congr_right fun here => ?_
      rw [exact s input start here]

/-- The same in a run whose steps are known to meet another condition, which keeps an invariant. -/
theorem Along.run_iff {known fine : σ → ι → Prop} (inv ok : σ → Prop)
    (keeps : ∀ s input, inv s → known s input → inv (step s input))
    (exact : ∀ s input, inv s → known s input → (ok (step s input) ↔ ok s ∧ fine s input)) {s : σ}
    (start : inv s) {inputs : List ι} (along : Along step known s inputs) :
    ok (inputs.foldl step s) ↔ ok s ∧ Along step fine s inputs := by
  induction inputs generalizing s with
  | nil => simp [Along]
  | cons input inputs ih =>
      rw [List.foldl_cons, ih (keeps s input start along.1) along.2, exact s input start along.1,
        and_assoc]
      rfl

/-- A loop whose body leaves it with a result or goes on from another state comes to an end. -/
inductive Ends {ρ : Type} (body : σ → ρ ⊕ σ) : σ → ρ → Prop
  | leave {s : σ} {result : ρ} (left : body s = .inl result) : Ends body s result
  | again {s next : σ} {result : ρ} (goes : body s = .inr next) (ends : Ends body next result) :
      Ends body s result

theorem Ends.next {ρ : Type} {body : σ → ρ ⊕ σ} {s next : σ} {result : ρ}
    (ends : Ends body s result) (goes : body s = .inr next) : Ends body next result := by
  cases ends with
  | leave left => simp [goes] at left
  | again also ends => exact Sum.inr.inj (also.symm.trans goes) ▸ ends

theorem Ends.unique {ρ : Type} {body : σ → ρ ⊕ σ} {s : σ} {first second : ρ}
    (one : Ends body s first) (other : Ends body s second) : first = second := by
  induction one with
  | leave left =>
      cases other with
      | leave again => exact Sum.inl.inj (left.symm.trans again)
      | again goes _ => simp [left] at goes
  | again goes _ ih => exact ih (other.next goes)

end Lib
