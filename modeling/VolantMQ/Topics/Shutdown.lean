import VolantMQ.Topics.Workers

/-!
# Closing the provider

`Close` takes the mutex, closes the channels and waits for the goroutines to end, still with the
mutex. A goroutine that has a message left to handle needs the mutex for it. So `Close` can be
called safely exactly when there is no such message: both channels are empty, and neither
goroutine has a message in its hands for which it waits.
-/

namespace VolantMQ.Topics.Workers

open Lib Packet

variable {w : Workers}

/-- `Close` waits for the goroutines while it holds the mutex, and a goroutine with a message in
its hands waits for the mutex. -/
def Deadlocked (w : Workers) : Prop :=
  w.closer = .waiting ∧ w.smu = some .closer ∧
    (w.inbound.worker.Waits ∨ w.inRetained.worker.Waits)

/-- Nothing is left in the channels, and neither goroutine waits for the mutex. -/
def Quiet (w : Workers) : Prop := w.inbound.Quiet ∧ w.inRetained.Quiet

theorem Quiet.tick (quiet : w.Quiet) (thread : Thread) : (w.tick thread).Quiet := by
  cases thread with
  | publisher => exact ⟨quiet.1.step _, quiet.2⟩
  | retainer => exact ⟨quiet.1, quiet.2.step _⟩
  | closer =>
      simp only [Workers.tick, close]
      split
      · split
        · exact quiet
        · exact quiet
      · exact quiet
      · exact quiet
      · split
        · exact quiet
        · exact quiet
      · exact quiet

theorem Quiet.not_deadlocked (quiet : w.Quiet) : ¬w.Deadlocked := by
  rintro ⟨-, -, published | retained⟩
  · exact quiet.1.2 published
  · exact quiet.2.2 retained

theorem Quiet.schedule (quiet : w.Quiet) (threads : List Thread) : (w.schedule threads).Quiet :=
  invariant_run Quiet (fun _ thread before => before.tick thread) quiet threads

/-- A goroutine that is inside the mutex finishes its message, and `Close` can take the mutex. -/
theorem exists_free (coherent : w.Coherent) (started : w.closer = .started) (noisy : ¬w.Quiet) :
    ∃ threads, (w.schedule threads).smu = none ∧ (w.schedule threads).closer = .started ∧
      ¬(w.schedule threads).Quiet := by
  cases owner : w.smu with
  | none => exact ⟨[], owner, started, noisy⟩
  | some thread =>
      cases thread with
      | publisher =>
          have locks := coherent.publisher.mp owner
          refine ⟨[.publisher], Drain.owner_of_locks _ _ locks, started, ?_⟩
          exact fun quiet => noisy ⟨Drain.quiet_of_step locks quiet.1, quiet.2⟩
      | retainer =>
          have locks := coherent.retainer.mp owner
          refine ⟨[.retainer], Drain.owner_of_locks _ _ locks, started, ?_⟩
          exact fun quiet => noisy ⟨quiet.1, Drain.quiet_of_step locks quiet.2⟩
      | closer => exact absurd started (coherent.closer.mp owner).1

/-- `Close` up to the point where it waits, run without a pause. -/
theorem schedule_close (free : w.smu = none) (started : w.closer = .started) :
    w.schedule [.closer, .closer, .closer] =
      { w with
        inbound := w.inbound.close
        inRetained := w.inRetained.close
        closer := .waiting
        smu := some .closer } := by
  simp [schedule, tick, close, started, free]

/-- Once `Close` waits, a message that is left ends in a deadlock: its goroutine takes it out of
the channel, if it has not yet done so, and waits. -/
theorem exists_deadlocked_of_waiting (coherent : w.Coherent) (waiting : w.closer = .waiting)
    (noisy : ¬w.Quiet) (running : w.inbound.worker ≠ .done ∧ w.inRetained.worker ≠ .done) :
    ∃ thread, (w.tick thread).Deadlocked := by
  have held : w.smu = some .closer := coherent.closer.mpr (by simp [waiting])
  have taken : w.smu.isNone = false := by simp [held]
  rcases not_and_or.mp noisy with published | retained
  · have outside : ¬w.inbound.worker.Locks := by simp [← coherent.publisher, held]
    refine ⟨.publisher, waiting, ?_, .inl ?_⟩
    · exact ((Drain.owner_step coherent.publisher).2 .closer (by decide)).mpr held
    · change (w.inbound.step w.smu.isNone).1.worker.Waits
      rw [taken]
      exact Drain.waits_of_not_quiet published outside running.1
  · have outside : ¬w.inRetained.worker.Locks := by simp [← coherent.retainer, held]
    refine ⟨.retainer, waiting, ?_, .inr ?_⟩
    · exact ((Drain.owner_step coherent.retainer).2 .closer (by decide)).mpr held
    · change (w.inRetained.step w.smu.isNone).1.worker.Waits
      rw [taken]
      exact Drain.waits_of_not_quiet retained outside running.2

theorem exists_deadlocked (coherent : w.Coherent) (started : w.closer = .started)
    (noisy : ¬w.Quiet) : ∃ threads, (w.schedule threads).Deadlocked := by
  rcases exists_free coherent started noisy with ⟨first, free, before, left⟩
  have settled : (w.schedule first).Coherent :=
    invariant_run Coherent (fun _ thread here => here.tick_step thread) coherent first
  have closing := schedule_close free before
  have waitingCoherent : ((w.schedule first).schedule [.closer, .closer, .closer]).Coherent :=
    invariant_run Coherent (fun _ thread here => here.tick_step thread) settled _
  have usable := settled.usable before
  rw [closing] at waitingCoherent
  rcases exists_deadlocked_of_waiting waitingCoherent rfl left
    ⟨fun done => by simp [settled.inbound done] at usable,
      fun done => by simp [settled.inRetained done] at usable⟩ with ⟨thread, deadlocked⟩
  refine ⟨first ++ [.closer, .closer, .closer] ++ [thread], ?_⟩
  rw [schedule, List.foldl_append, List.foldl_append]
  change ((((w.schedule first).schedule [.closer, .closer, .closer])).tick thread).Deadlocked
  rw [closing]
  exact deadlocked

theorem Deadlocked.call (deadlocked : w.Deadlocked) (op : Provider.Op) : (w.call op).Deadlocked := by
  rcases deadlocked with ⟨waiting, held, waits⟩
  have busy : w.ready = false := by simp [ready, held]
  rcases call_cases w op with ⟨obj, -, same⟩ | ⟨-, free, -⟩ | ⟨-, -, same⟩
  · rw [same]
    exact ⟨waiting, held, by simpa using waits⟩
  · simp [busy] at free
  · rw [same]
    exact ⟨waiting, held, waits⟩

theorem Deadlocked.tick (deadlocked : w.Deadlocked) (coherent : w.Coherent) (thread : Thread) :
    (w.tick thread).Deadlocked := by
  rcases deadlocked with ⟨waiting, held, waits⟩
  have taken : w.smu.isNone = false := by simp [held]
  cases thread with
  | publisher =>
      refine ⟨waiting, ((Drain.owner_step coherent.publisher).2 .closer (by decide)).mpr held, ?_⟩
      refine waits.imp_left fun published => ?_
      change (w.inbound.step w.smu.isNone).1.worker.Waits
      rwa [taken, Drain.step_of_waits published]
  | retainer =>
      refine ⟨waiting, ((Drain.owner_step coherent.retainer).2 .closer (by decide)).mpr held, ?_⟩
      refine waits.imp_right fun retained => ?_
      change (w.inRetained.step w.smu.isNone).1.worker.Waits
      rwa [taken, Drain.step_of_waits retained]
  | closer =>
      simp only [Workers.tick, close, waiting]
      split
      · rename_i published retained
        simp [published, retained, Worker.Waits] at waits
      · exact ⟨waiting, held, waits⟩

/-- A deadlock stays, whatever the threads and the callers do. -/
theorem Deadlocked.run (deadlocked : w.Deadlocked) (coherent : w.Coherent) (acts : List Act) :
    (w.run acts).Deadlocked := by
  have both : (w.run acts).Coherent ∧ (w.run acts).Deadlocked := by
    refine invariant_run (fun v : Workers => v.Coherent ∧ v.Deadlocked) ?_ ⟨coherent, deadlocked⟩ acts
    rintro v next ⟨sound, before⟩
    refine ⟨sound.act_step next, ?_⟩
    cases next with
    | call op => exact before.call op
    | publish m => exact ⟨before.1, before.2.1, by simpa [act] using before.2.2⟩
    | tick thread => exact before.tick sound thread
  exact both.2

/-- When `Close` starts, no schedule of the three threads ends in a deadlock if and only if both
channels are empty and neither goroutine waits for the mutex with a message in its hands. -/
theorem close_deadlockFree_iff (acts : List Act) (started : (new.run acts).closer = .started) :
    (∀ threads, ¬((new.run acts).schedule threads).Deadlocked) ↔ (new.run acts).Quiet := by
  constructor
  · intro free
    by_contra noisy
    rcases exists_deadlocked (coherent_run acts) started noisy with ⟨threads, deadlocked⟩
    exact free threads deadlocked
  · intro quiet threads
    exact (quiet.schedule threads).not_deadlocked

/-- A message that the publisher has handled does not stand in the way of `Close`. -/
theorem close_deadlockFree_handled :
    let w := new.run
      [.publish (.new ProtocolV311), .tick .publisher, .tick .publisher, .tick .publisher]
    w.Quiet ∧ ∀ threads, ¬(w.schedule threads).Deadlocked := by
  intro w
  have quiet : w.Quiet := by
    refine ⟨⟨rfl, ?_⟩, ⟨rfl, ?_⟩⟩
    · rintro ⟨message, same⟩
      exact nomatch (show Worker.idle = .waiting message from same)
    · rintro ⟨message, same⟩
      exact nomatch (show Worker.idle = .waiting message from same)
  exact ⟨quiet, (close_deadlockFree_iff _ rfl).mpr quiet⟩

/-- With one message in `inbound`, `Close` deadlocks if it comes first. -/
theorem close_deadlocks :
    ¬∀ threads, ¬((new.run [.publish (.new ProtocolV311)]).schedule threads).Deadlocked := by
  intro free
  apply free [.closer, .closer, .closer, .publisher]
  exact ⟨rfl, rfl, .inl ⟨_, rfl⟩⟩

end VolantMQ.Topics.Workers
