import Mathlib.Algebra.Ring.Nat
import Mathlib.Data.List.Basic
import Mathlib.Tactic.Common

/-!
# Pools of threads

A pool is the list of the places at which its threads are. One thread at a time takes a step: it
moves to another place, ends, or starts others. What holds of some thread or of all threads of a pool
is followed through such a step by cutting the pool at the thread.
-/

namespace Lib

variable {τ : Type}

/-- The thread with the given number is replaced. -/
def replaceAt (pool : List τ) (i : ℕ) (next : List τ) : List τ :=
  pool.take i ++ next ++ pool.drop (i + 1)

/-- The pool cut at a thread that takes a step. -/
theorem exists_cut {pool : List τ} {i : ℕ} {thread : τ} (here : pool[i]? = some thread) :
    ∃ before after, pool = before ++ thread :: after ∧
      ∀ next, replaceAt pool i next = before ++ next ++ after := by
  rcases List.getElem?_eq_some_iff.mp here with ⟨inside, same⟩
  refine ⟨pool.take i, pool.drop (i + 1), ?_, fun _ => rfl⟩
  rw [← same, List.getElem_cons_drop, List.take_append_drop]

/-- All other threads are still there. -/
theorem mem_replaceAt_of_ne {pool : List τ} {i : ℕ} {thread : τ} (here : pool[i]? = some thread)
    (next : List τ) {other : τ} (member : other ∈ pool) (distinct : other ≠ thread) :
    other ∈ replaceAt pool i next := by
  rcases exists_cut here with ⟨before, after, whole, replaced⟩
  rw [replaced]
  rw [whole] at member
  rcases List.mem_append.mp member with early | late
  · simp [early]
  · rcases List.mem_cons.mp late with same | later
    · exact absurd same distinct
    · simp [later]

/-- Somebody else has a property that the thread does not have. -/
theorem exists_mem_replaceAt {pool : List τ} {i : ℕ} {thread : τ} (here : pool[i]? = some thread)
    (next : List τ) {good : τ → Prop} (unlike : ¬good thread) (some_ : ∃ other ∈ pool, good other) :
    ∃ other ∈ replaceAt pool i next, good other := by
  rcases some_ with ⟨other, member, holds⟩
  refine ⟨other, mem_replaceAt_of_ne here next member ?_, holds⟩
  rintro rfl
  exact unlike holds

/-- A thread of the pool after the step is a new one or an old one. -/
theorem mem_replaceAt {pool : List τ} {i : ℕ} {next : List τ} {other : τ}
    (member : other ∈ replaceAt pool i next) : other ∈ next ∨ other ∈ pool := by
  unfold replaceAt at member
  rcases List.mem_append.mp member with front | back
  · rcases List.mem_append.mp front with early | new
    · exact .inr (List.mem_of_mem_take early)
    · exact .inl new
  · exact .inr (List.mem_of_mem_drop back)

theorem mem_replaceAt_of_nil {pool : List τ} {i : ℕ} {next : List τ} {other : τ}
    (member : other ∈ replaceAt pool i []) : other ∈ replaceAt pool i next := by
  unfold replaceAt at member ⊢
  rw [List.append_nil] at member
  rcases List.mem_append.mp member with early | late
  · simp [early]
  · simp [late]

theorem mem_replaceAt_of_mem {pool : List τ} {i : ℕ} {thread : τ} (here : pool[i]? = some thread)
    {next : List τ} {other : τ} (member : other ∈ next) : other ∈ replaceAt pool i next := by
  rcases exists_cut here with ⟨before, after, -, replaced⟩
  rw [replaced]
  simp [member]

/-- A sum over the pool, before and after the step. -/
theorem sum_replaceAt {pool : List τ} {i : ℕ} {thread : τ} (here : pool[i]? = some thread)
    (next : List τ) (f : τ → ℕ) :
    ((replaceAt pool i next).map f).sum + f thread = (pool.map f).sum + (next.map f).sum := by
  rcases exists_cut here with ⟨before, after, whole, replaced⟩
  rw [replaced, whole]
  simp only [List.map_append, List.map_cons, List.sum_append, List.sum_cons]
  omega

end Lib
