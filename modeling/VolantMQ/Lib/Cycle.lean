import Mathlib.Data.List.Basic
import Mathlib.Tactic.Common

/-!
# One item at a time

A sender hands items to a receiver, one after the other. The connection between them may break at
any time, and packets may be lost, but neither side forgets what it has stored. On a new connection
the sender repeats the packet that was not answered; otherwise it repeats nothing, so that at most
one packet of an exchange is under way.

A plain item is delivered whenever it arrives. An exact item is stored when it arrives, and
delivered when the sender commits to it. The receiver may refuse an exact item that it has not
stored. The main result says that an exact item is delivered at most once, and that a completed item
was delivered.
-/

namespace Lib.Cycle

/-- Where the last packet of an exchange is: it is still to be sent, it was dropped, it is under way
to the receiver, or its answer is under way to the sender. -/
inductive Place where
  | pending
  | lost
  | request
  | reply
  deriving DecidableEq

/-- How far an exchange has come, and whether the receiver has stored the item. -/
inductive Stage (α : Type) where
  | idle
  | plain (item : α) (place : Place)
  | offering (item : α) (place : Place) (stored : Bool)
  | committing (item : α) (place : Place) (stored : Bool)

/-- What has happened so far. Items are numbered in the order in which they are sent. -/
structure Log (α : Type) where
  sent : List α
  delivered : List (ℕ × α)
  completed : List ℕ
  refused : List ℕ

variable {α : Type}

/-- The same stage, with the packet somewhere else. -/
def Stage.put (place : Place) : Stage α → Stage α
  | idle => idle
  | plain item _ => plain item place
  | offering item _ stored => offering item place stored
  | committing item _ stored => committing item place stored

namespace Log

def empty : Log α := ⟨[], [], [], []⟩

/-- The number of the last item. -/
def current (log : Log α) : ℕ := log.sent.length - 1

def send (log : Log α) (item : α) : Log α := { log with sent := log.sent ++ [item] }

def deliver (log : Log α) (number : ℕ) (item : α) : Log α :=
  { log with delivered := log.delivered ++ [(number, item)] }

def complete (log : Log α) : Log α := { log with completed := log.completed ++ [log.current] }

def refuse (log : Log α) : Log α := { log with refused := log.refused ++ [log.current] }

end Log

/-- The steps of an exchange. -/
inductive Step (exact : α → Prop) : Stage α → Log α → Stage α → Log α → Prop where
  | plain {log : Log α} {item : α} (kind : ¬exact item) :
      Step exact .idle log (.plain item .request) (log.send item)
  | offer {log : Log α} {item : α} (kind : exact item) :
      Step exact .idle log (.offering item .request false) (log.send item)
  | move {stage : Stage α} {log : Log α} {place : Place} (live : place ≠ .reply) :
      Step exact stage log (stage.put place) log
  | receive {log : Log α} {item : α} :
      Step exact (.plain item .request) log (.plain item .reply) (log.deliver log.current item)
  | confirm {log : Log α} {item : α} : Step exact (.plain item .reply) log .idle log.complete
  | accept {log : Log α} {item : α} {stored : Bool} :
      Step exact (.offering item .request stored) log (.offering item .reply true) log
  | refuse {log : Log α} {item : α} :
      Step exact (.offering item .request false) log (.offering item .reply false) log
  | proceed {log : Log α} {item : α} :
      Step exact (.offering item .reply true) log (.committing item .request true) log
  | giveUp {log : Log α} {item : α} :
      Step exact (.offering item .reply false) log .idle log.refuse
  | deliver {log : Log α} {item : α} :
      Step exact (.committing item .request true) log (.committing item .reply false)
        (log.deliver log.current item)
  | answer {log : Log α} {item : α} :
      Step exact (.committing item .request false) log (.committing item .reply false) log
  | finish {log : Log α} {item : α} :
      Step exact (.committing item .reply false) log .idle log.complete

/-- What the stage of the last item tells about it. -/
def Stage.Agrees (exact : α → Prop) (log : Log α) : Stage α → Prop
  | idle => True
  | plain item place => ¬exact item ∧ log.sent.getLast? = some item ∧
      (place = .reply → (log.current, item) ∈ log.delivered)
  | offering item _ _ => exact item ∧ log.sent.getLast? = some item ∧
      ∀ other, (log.current, other) ∉ log.delivered
  | committing item _ stored => exact item ∧ log.sent.getLast? = some item ∧
      if stored then ∀ other, (log.current, other) ∉ log.delivered
      else (log.current, item) ∈ log.delivered

/-- What the receiver has got is what was sent, and an exact item comes only once; a completed item
was delivered, and a refused one never is. Nothing is forgotten but the last item may be on its
way. -/
structure Log.Faithful (exact : α → Prop) (log : Log α) (busy : Prop) : Prop where
  genuine : ∀ number item, (number, item) ∈ log.delivered → log.sent[number]? = some item
  once : log.delivered.Pairwise fun first second => exact second.2 → first.1 ≠ second.1
  completed : ∀ number ∈ log.completed, ∃ item, (number, item) ∈ log.delivered
  refused : ∀ number ∈ log.refused, ∀ item, (number, item) ∉ log.delivered
  settled : ∀ number < log.sent.length, number ∈ log.completed ∨ number ∈ log.refused ∨
    (number + 1 = log.sent.length ∧ busy)

theorem Log.Faithful.mono {exact : α → Prop} {log : Log α} {busy waiting : Prop}
    (faithful : log.Faithful exact busy) (still : busy → waiting) : log.Faithful exact waiting := by
  refine ⟨faithful.genuine, faithful.once, faithful.completed, faithful.refused, ?_⟩
  intro number small
  rcases faithful.settled number small with done | done | ⟨last, here⟩
  · exact .inl done
  · exact .inr (.inl done)
  · exact .inr (.inr ⟨last, still here⟩)

/-- The invariant of an exchange. -/
structure Sound (exact : α → Prop) (stage : Stage α) (log : Log α) : Prop where
  faithful : log.Faithful exact (stage ≠ .idle)
  past : ∀ number, number ∈ log.completed ∨ number ∈ log.refused →
    number < log.sent.length ∧ (stage ≠ .idle → number ≠ log.current)
  agrees : stage.Agrees exact log

section Steps

variable {exact : α → Prop} {stage next : Stage α} {log : Log α} {item : α}

theorem getElem?_current (last : log.sent.getLast? = some item) :
    log.sent[log.current]? = some item := by
  rw [Log.current, ← List.getLast?_eq_getElem?]
  exact last

theorem current_lt (last : log.sent.getLast? = some item) :
    log.current + 1 = log.sent.length := by
  rcases List.getLast?_eq_some_iff.mp last with ⟨before, split⟩
  simp [Log.current, split]

/-- The stage changes and the log does not. -/
theorem Sound.advance (sound : Sound exact stage log) (busy : stage ≠ .idle) (live : next ≠ .idle)
    (agrees : next.Agrees exact log) : Sound exact next log := by
  refine ⟨sound.faithful.mono fun _ => live, ?_, agrees⟩
  intro number before
  rcases sound.past number before with ⟨small, notLast⟩
  exact ⟨small, fun _ => notLast busy⟩

/-- A new item is sent. -/
theorem Sound.send (sound : Sound exact .idle log) (live : next ≠ .idle)
    (agrees : next.Agrees exact (log.send item)) : Sound exact next (log.send item) := by
  refine ⟨⟨?_, sound.faithful.once, sound.faithful.completed, sound.faithful.refused, ?_⟩, ?_,
    agrees⟩
  · intro number other member
    have before := sound.faithful.genuine number other member
    rcases List.getElem?_eq_some_iff.mp before with ⟨small, _⟩
    simp only [Log.send]
    rw [List.getElem?_append_left small]
    exact before
  · intro number small
    simp only [Log.send, List.length_append, List.length_singleton] at small ⊢
    rcases Nat.lt_or_ge number log.sent.length with before | last
    · rcases sound.faithful.settled number before with done | done | ⟨_, busy⟩
      · exact .inl done
      · exact .inr (.inl done)
      · exact absurd rfl busy
    · exact .inr (.inr ⟨by omega, live⟩)
  · intro number before
    rcases sound.past number before with ⟨small, _⟩
    simp only [Log.send, Log.current, List.length_append, List.length_singleton]
    exact ⟨by omega, fun _ => by omega⟩

/-- Nothing that was delivered has the number of the item sent next. -/
theorem Sound.fresh (sound : Sound exact .idle log) (item other : α) :
    ((log.send item).current, other) ∉ (log.send item).delivered := by
  intro member
  have before := sound.faithful.genuine _ other member
  rcases List.getElem?_eq_some_iff.mp before with ⟨small, _⟩
  simp [Log.send, Log.current] at small

/-- The last item is delivered, for the first time if it is exact. -/
theorem Sound.deliver (sound : Sound exact stage log) (busy : stage ≠ .idle)
    (last : log.sent.getLast? = some item)
    (first : exact item → ∀ other, (log.current, other) ∉ log.delivered) (live : next ≠ .idle)
    (agrees : next.Agrees exact (log.deliver log.current item)) :
    Sound exact next (log.deliver log.current item) := by
  refine ⟨⟨?_, ?_, ?_, ?_, ?_⟩, ?_, agrees⟩
  · intro number other member
    rcases List.mem_append.mp member with before | new
    · exact sound.faithful.genuine number other before
    · rcases Prod.mk.inj (List.mem_singleton.mp new) with ⟨rfl, rfl⟩
      exact getElem?_current last
  · refine List.pairwise_append.mpr ⟨sound.faithful.once, List.pairwise_singleton _ _, ?_⟩
    intro earlier member new here kind same
    rw [List.mem_singleton.mp here] at kind same
    have number : earlier.1 = log.current := same
    have before : (log.current, earlier.2) ∈ log.delivered := by
      rw [← number]
      exact member
    exact first kind earlier.2 before
  · intro number done
    rcases sound.faithful.completed number done with ⟨other, member⟩
    exact ⟨other, List.mem_append_left _ member⟩
  · intro number done other member
    rcases List.mem_append.mp member with before | new
    · exact sound.faithful.refused number done other before
    · rcases Prod.mk.inj (List.mem_singleton.mp new) with ⟨same, _⟩
      exact (sound.past number (.inr done)).2 busy same
  · intro number small
    rcases sound.faithful.settled number small with done | done | ⟨isLast, _⟩
    · exact .inl done
    · exact .inr (.inl done)
    · exact .inr (.inr ⟨isLast, live⟩)
  · intro number before
    rcases sound.past number before with ⟨small, notLast⟩
    exact ⟨small, fun _ => notLast busy⟩

/-- The last item is done with. -/
theorem Sound.complete (sound : Sound exact stage log) (last : log.sent.getLast? = some item)
    (member : (log.current, item) ∈ log.delivered) : Sound exact .idle log.complete := by
  have small := current_lt last
  refine ⟨⟨sound.faithful.genuine, sound.faithful.once, ?_, sound.faithful.refused, ?_⟩, ?_, trivial⟩
  · intro number done
    rcases List.mem_append.mp done with before | new
    · exact sound.faithful.completed number before
    · rw [List.mem_singleton.mp new]
      exact ⟨item, member⟩
  · intro number bound
    rcases sound.faithful.settled number bound with done | done | ⟨isLast, _⟩
    · exact .inl (List.mem_append_left _ done)
    · exact .inr (.inl done)
    · refine .inl (List.mem_append_right _ (List.mem_singleton.mpr ?_))
      omega
  · intro number before
    refine ⟨?_, fun busy => absurd rfl busy⟩
    rcases before with done | done
    · rcases List.mem_append.mp done with earlier | new
      · exact (sound.past number (.inl earlier)).1
      · have same := List.mem_singleton.mp new
        simp only [Log.complete]
        omega
    · exact (sound.past number (.inr done)).1

/-- The last item is given up. -/
theorem Sound.giveUp (sound : Sound exact stage log) (last : log.sent.getLast? = some item)
    (absent : ∀ other, (log.current, other) ∉ log.delivered) : Sound exact .idle log.refuse := by
  have small := current_lt last
  refine ⟨⟨sound.faithful.genuine, sound.faithful.once, sound.faithful.completed, ?_, ?_⟩, ?_,
    trivial⟩
  · intro number done
    rcases List.mem_append.mp done with before | new
    · exact sound.faithful.refused number before
    · rw [List.mem_singleton.mp new]
      exact absent
  · intro number bound
    rcases sound.faithful.settled number bound with done | done | ⟨isLast, _⟩
    · exact .inl done
    · exact .inr (.inl (List.mem_append_left _ done))
    · refine .inr (.inl (List.mem_append_right _ (List.mem_singleton.mpr ?_)))
      omega
  · intro number before
    refine ⟨?_, fun busy => absurd rfl busy⟩
    rcases before with done | done
    · exact (sound.past number (.inl done)).1
    · rcases List.mem_append.mp done with earlier | new
      · exact (sound.past number (.inr earlier)).1
      · have same := List.mem_singleton.mp new
        simp only [Log.refuse]
        omega

/-- Every step keeps the invariant. -/
theorem Sound.step (sound : Sound exact stage log) {after : Log α}
    (step : Step exact stage log next after) : Sound exact next after := by
  have agrees := sound.agrees
  cases step with
  | plain kind => exact sound.send (by simp) ⟨kind, by simp [Log.send], by simp⟩
  | offer kind => exact sound.send (by simp) ⟨kind, by simp [Log.send], sound.fresh _⟩
  | move live =>
      cases stage with
      | idle => exact sound
      | plain item place =>
          exact sound.advance (by simp) (by simp [Stage.put])
            ⟨agrees.1, agrees.2.1, fun reply => absurd reply live⟩
      | offering item place stored => exact sound.advance (by simp) (by simp [Stage.put]) agrees
      | committing item place stored => exact sound.advance (by simp) (by simp [Stage.put]) agrees
  | receive =>
      exact sound.deliver (by simp) agrees.2.1 (fun kind => absurd kind agrees.1) (by simp)
        ⟨agrees.1, agrees.2.1, fun _ => List.mem_append_right _ (List.mem_singleton.mpr rfl)⟩
  | confirm => exact sound.complete agrees.2.1 (agrees.2.2 rfl)
  | accept => exact sound.advance (by simp) (by simp) agrees
  | refuse => exact sound.advance (by simp) (by simp) agrees
  | proceed =>
      exact sound.advance (by simp) (by simp) ⟨agrees.1, agrees.2.1, by simpa using agrees.2.2⟩
  | giveUp => exact sound.giveUp agrees.2.1 agrees.2.2
  | deliver =>
      have absent := agrees.2.2
      rw [if_pos rfl] at absent
      exact sound.deliver (by simp) agrees.2.1 (fun _ => absent) (by simp)
        ⟨agrees.1, agrees.2.1, List.mem_append_right _ (List.mem_singleton.mpr rfl)⟩
  | answer => exact sound.advance (by simp) (by simp) agrees
  | finish => exact sound.complete agrees.2.1 (by simpa using agrees.2.2)

end Steps

end Lib.Cycle
