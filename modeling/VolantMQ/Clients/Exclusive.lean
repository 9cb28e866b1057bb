import VolantMQ.Clients.Takeover

/-!
# The wrap that counts

At every time there is one wrap that counts. The map has this wrap or nothing, the calls that can go
on are all at this wrap, and the only session that can be online or can still delete the entry is
the one in it. Every step keeps that, unless a call finds nothing in the map while another call holds
on to the old wrap, or a call uses a session whose timer has fired and has not finished.
-/

namespace VolantMQ.Clients.Takeover

open Lib

namespace Pc

/-- The call has the lock of its wrap. -/
def holds : Pc → Bool
  | acquire | returned => false
  | _ => true

/-- The call has not put its own session into the wrap. -/
def early : Pc → Bool
  | store | configure | start | unlock | abandoned | returned => false
  | _ => true

/-- The call has deleted the entry, or has put a session into a wrap that is not in the map. -/
def vacant : Pc → Bool
  | finalize | store | abandoned => true
  | _ => false

/-- The call works with the session in the wrap. -/
def refers : Pc → Bool
  | acquire | unlock | abandoned | returned => false
  | _ => true

/-- The call has waited for the disconnect of the session. -/
def idle : Pc → Bool
  | timer _ | timerLock _ | check | signalClose | finalize | swap | store | configure | start => true
  | _ => false

/-- The call has waited for the timer of the session. -/
def quiet : Pc → Bool
  | check | signalClose | finalize | swap | store | configure | start => true
  | _ => false

/-- The wrap is in the map. -/
def ready : Pc → Bool
  | configure | start => true
  | _ => false

theorem idle_of_quiet {pc : Pc} (quiet : pc.quiet = true) : pc.idle = true := by
  cases pc <;> first | rfl | cases quiet

theorem quiet_of_ready {pc : Pc} (ready : pc.ready = true) : pc.quiet = true := by
  cases pc <;> first | rfl | cases ready

theorem holds_of_vacant {pc : Pc} (vacant : pc.vacant = true) : pc.holds = true := by
  cases pc <;> first | rfl | cases vacant

theorem holds_of_refers {pc : Pc} (refers : pc.refers = true) :
    pc.holds = true ∧ pc.underway = true := by
  cases pc with
  | acquire | unlock | abandoned | returned => cases refers
  | _ => exact ⟨rfl, rfl⟩

theorem not_abandoned {pc : Pc} (underway : pc.underway = true) : pc ≠ abandoned := by
  rintro rfl
  cases underway

theorem busy_of_holds {pc : Pc} (holds : pc.holds = true) : pc ≠ returned := by
  rintro rfl
  cases holds

end Pc

namespace Manager

open Session Function

/-- What a call with the lock knows of the session in its wrap. -/
structure Knows (m : Manager) (cur : ℕ) (c : Call) : Prop where
  ses : c.pc.refers = true → c.ses = (m.wraps cur).s
  idle : c.pc.idle = true → (m.sessions (m.wraps cur).s).Idle
  quiet : c.pc.quiet = true → (m.sessions (m.wraps cur).s).Quiet
  stored : c.pc.ready = true → m.entry = some cur

/-- What holds at all times if calls and callbacks come in time. There is one wrap that counts. It is
the only one that the map can have and the only one that calls can get, and no session but the one in
it has anything left to do. -/
structure Inv (m : Manager) (cur : ℕ) : Prop where
  current : cur < m.next ∧ (m.wraps cur).s < m.next
  bound : ∀ n, (m.calls n).pc ≠ .returned → n < m.next ∧ (m.calls n).wrap < m.next
  mapped : ∀ wrap, m.entry = some wrap → wrap = cur
  wrap : ∀ n, (m.calls n).pc.underway = true →
    (m.calls n).wrap = cur ∨ m.Stuck (m.calls n).wrap
  single : ∀ j n, (m.calls j).pc.holds = true → (m.calls n).pc.holds = true →
    (m.calls j).wrap = (m.calls n).wrap → j = n
  locked : ∀ n, (m.calls n).pc.holds = true → (m.wraps (m.calls n).wrap).locked = true
  sound : ∀ k, (m.sessions k).Sound
  dead : ∀ k, k ≠ (m.wraps cur).s → (m.sessions k).Dead
  link : m.entry = some cur ∨ (m.sessions (m.wraps cur).s).Dead
  fresh : ∀ n, (m.calls n).pc.early = true → m.sessions n = .new ∧ n ≠ (m.wraps cur).s
  knows : ∀ n, (m.calls n).wrap = cur → m.Knows cur (m.calls n)
  cause : m.entry = none → (m.sessions (m.wraps cur).s).Finalizing ∨
    (∃ n, (m.calls n).wrap = cur ∧ (m.calls n).pc.vacant = true) ∨
    ∀ n, (m.calls n).pc.underway = true → m.Stuck (m.calls n).wrap

section Inv

variable {m next : Manager} {cur n : ℕ}

theorem Inv.exclusive (inv : m.Inv cur) : m.Exclusive := by
  have here : ∀ k, (m.sessions k).isOnline = true → k = (m.wraps cur).s := by
    intro k online
    by_contra other
    rw [(inv.dead k other).offline] at online
    cases online
  refine ⟨fun j k first second => (here j first).trans (here k second).symm, fun k online => ?_⟩
  rcases inv.link with mapped | dead
  · exact ⟨cur, mapped, (here k online).symm⟩
  · rw [← here k online] at dead
    rw [dead.offline] at online
    cases online

theorem inv_new (AllowReplace : Bool) : (new AllowReplace).Inv 0 where
  current := ⟨Nat.one_pos, Nat.one_pos⟩
  bound := fun _ busy => absurd rfl busy
  mapped := nofun
  wrap := nofun
  single := nofun
  locked := nofun
  sound := fun _ => sound_new
  dead := fun _ _ => dead_new
  link := .inr dead_new
  fresh := nofun
  knows := fun _ _ => ⟨nofun, nofun, nofun, nofun⟩
  cause := fun _ => .inr (.inr nofun)

/-- Only the session in the wrap deletes the entry. -/
theorem Inv.handle_current (inv : m.Inv cur) {k : ℕ} {event : Event}
    (deletes : ((m.sessions k).step event).2 = true) : k = (m.wraps cur).s := by
  by_contra other
  rw [((inv.dead k other).step event).2] at deletes
  cases deletes

theorem sessions_handle (m : Manager) (k j : ℕ) (event : Event) :
    (m.handle k event).sessions j = m.sessions j ∨
      k = j ∧ (m.handle k event).sessions j = ((m.sessions j).step event).1 := by
  by_cases same : k = j
  · subst same
    exact .inr ⟨rfl, update_self _ _ _⟩
  · exact .inl (update_of_ne (Ne.symm same) _ _)

theorem Knows.handle {c : Call} (inv : m.Inv cur) (knows : m.Knows cur c) (k : ℕ) (event : Event) :
    (m.handle k event).Knows cur c := by
  refine ⟨knows.ses, fun idle => ?_, fun quiet => ?_, fun ready => ?_⟩
  · rcases sessions_handle m k (m.wraps cur).s event with same | ⟨-, next⟩
    · exact same ▸ knows.idle idle
    · exact next ▸ idle_of_idle (knows.idle idle) event
  · have idle := knows.idle (Pc.idle_of_quiet quiet)
    rcases sessions_handle m k (m.wraps cur).s event with same | ⟨-, next⟩
    · exact same ▸ knows.quiet quiet
    · exact next ▸ (idle_step idle (knows.quiet quiet) event).2.1
  · have quiet := Pc.quiet_of_ready ready
    have idle := knows.idle (Pc.idle_of_quiet quiet)
    have keeps : ((m.sessions k).step event).2 = false := by
      refine Bool.eq_false_iff.mpr fun deletes => ?_
      rw [inv.handle_current deletes, (idle_step idle (knows.quiet quiet) event).2.2] at deletes
      cases deletes
    simp only [Manager.handle, keeps, Bool.false_eq_true, if_false]
    exact knows.stored ready

theorem Inv.handle (inv : m.Inv cur) (k : ℕ) (event : Event) : (m.handle k event).Inv cur := by
  have entry : (m.handle k event).entry = m.entry ∨ (m.handle k event).entry = none ∧
      ((m.handle k event).sessions (m.wraps cur).s).Dead ∧
      ((m.handle k event).sessions (m.wraps cur).s).Finalizing := by
    cases deletes : ((m.sessions k).step event).2 with
    | false => exact .inl (by simp [Manager.handle, deletes])
    | true =>
        have here := inv.handle_current deletes
        have last := (inv.sound k).deletes deletes
        have next : (m.handle k event).sessions (m.wraps cur).s = ((m.sessions k).step event).1 := by
          rw [← here]
          exact update_self _ _ _
        rw [next]
        exact .inr ⟨by simp [Manager.handle, deletes], last⟩
  have sound : ∀ j, ((m.handle k event).sessions j).Sound := by
    intro j
    rcases sessions_handle m k j event with same | ⟨-, next⟩
    · exact same ▸ inv.sound j
    · exact next ▸ (inv.sound j).step event
  have dead : ∀ j, (m.sessions j).Dead → ((m.handle k event).sessions j).Dead := by
    intro j before
    rcases sessions_handle m k j event with same | ⟨-, next⟩
    · exact same ▸ before
    · exact next ▸ (before.step event).1
  refine ⟨inv.current, inv.bound, ?_, inv.wrap, inv.single, inv.locked, sound,
    fun j other => dead j (inv.dead j other), ?_, ?_,
    fun n here => (inv.knows n here).handle inv k event, ?_⟩
  · intro wrap mapped
    rcases entry with same | ⟨none, -⟩
    · exact inv.mapped wrap (same ▸ mapped)
    · rw [none] at mapped
      cases mapped
  · rcases entry with same | ⟨-, last, -⟩
    · rw [same]
      exact inv.link.imp_right (dead _)
    · exact .inr last
  · intro n early
    rcases inv.fresh n early with ⟨new, other⟩
    refine ⟨?_, other⟩
    rcases sessions_handle m k n event with same | ⟨-, next⟩
    · exact same.trans new
    · rw [next, new, step_new]
  · intro none
    rcases entry with same | ⟨-, -, last⟩
    · refine (inv.cause (same ▸ none)).imp_left fun finalizing => ?_
      change ((m.handle k event).sessions (m.wraps cur).s).Finalizing
      rcases sessions_handle m k (m.wraps cur).s event with same | ⟨-, next⟩
      · exact same ▸ finalizing
      · exact next ▸ (inv.sound _).finalizing finalizing event
    · exact .inl last

/-- A call without the lock knows nothing. -/
theorem knows_of_not_holds (m : Manager) (cur : ℕ) {c : Call} (outside : c.pc.holds = false) :
    m.Knows cur c := by
  rcases c with ⟨wrap, ses, pc⟩
  cases pc with
  | acquire | returned => exact ⟨nofun, nofun, nofun, nofun⟩
  | _ => cases outside

/-- Who gives up a lock does not come back. -/
theorem Stuck.mono {wrap : ℕ} (stuck : m.Stuck wrap) {c : Call} (running : (m.calls n).pc ≠ .abandoned)
    (calls : next.calls = update m.calls n c) : next.Stuck wrap := by
  rcases stuck with ⟨j, abandoned, same⟩
  have other : j ≠ n := by
    rintro rfl
    exact running abandoned
  refine ⟨j, ?_, ?_⟩
  all_goals
    rw [calls, update_of_ne other]
    assumption

theorem Inv.not_begun (inv : m.Inv cur) : (m.calls m.next).pc = .returned := by
  by_contra busy
  exact absurd (inv.bound m.next busy).1 (Nat.lt_irrefl _)

theorem Inv.before (inv : m.Inv cur) {j : ℕ} (busy : (m.calls j).pc ≠ .returned) :
    (m.calls j).wrap ≠ m.next :=
  Nat.ne_of_lt (inv.bound j busy).2

/-- Mutual exclusion stays if nobody else has the lock that the call now has. -/
theorem Inv.single_update (inv : m.Inv cur) {c : Call} (calls : next.calls = update m.calls n c)
    (alone : c.pc.holds = true → ∀ {j : ℕ}, j ≠ n → (m.calls j).pc.holds = true →
      (m.calls j).wrap ≠ c.wrap) (i j : ℕ) (first : (next.calls i).pc.holds = true)
    (second : (next.calls j).pc.holds = true) (same : (next.calls i).wrap = (next.calls j).wrap) :
    i = j := by
  have self : next.calls n = c := by rw [calls, update_self]
  have old : ∀ {j : ℕ}, j ≠ n → next.calls j = m.calls j := by
    intro j other
    rw [calls, update_of_ne other]
  by_cases acting : i = n
  · by_contra distinct
    have other : j ≠ n := fun both => distinct (acting.trans both.symm)
    rw [acting, self] at first same
    rw [old other] at second same
    exact alone first other second same.symm
  · rw [old acting] at first same
    by_cases acting' : j = n
    · rw [acting', self] at second same
      exact absurd same (alone second acting first)
    · rw [old acting'] at second same
      exact inv.single i j first second same

/-- A call begins at a wrap: its own, which it has just stored, or the one that counted before. -/
theorem Inv.begins (inv : m.Inv cur) {wrap : ℕ} (c : Call) (here : c.wrap = wrap)
    (calls : next.calls = update m.calls m.next c) (count : next.next = m.next + 1)
    (wraps : next.wraps = update m.wraps m.next ⟨m.next, c.pc.holds⟩)
    (sessions : next.sessions = update m.sessions m.next .new) (entry : next.entry = some wrap)
    (inside : wrap ≤ m.next ∧ (next.wraps wrap).s ≤ m.next)
    (others : ∀ n, (m.calls n).pc.underway = true →
      (m.calls n).wrap = wrap ∨ m.Stuck (m.calls n).wrap)
    (own : c.pc.holds = true → wrap = m.next)
    (dead : ∀ k, k ≠ m.next → k ≠ (next.wraps wrap).s → (m.sessions k).Dead)
    (early : c.pc.early = true → m.next ≠ (next.wraps wrap).s)
    (fresh : ∀ n, n ≠ m.next → (m.calls n).pc.early = true → n ≠ (next.wraps wrap).s)
    (knows : next.Knows wrap c)
    (know : ∀ n, n ≠ m.next → (m.calls n).wrap = wrap → next.Knows wrap (m.calls n)) :
    next.Inv wrap := by
  have self : next.calls m.next = c := by rw [calls, update_self]
  have old : ∀ {j : ℕ}, j ≠ m.next → next.calls j = m.calls j := by
    intro j other
    rw [calls, update_of_ne other]
  have running : (m.calls m.next).pc ≠ .abandoned := by simp [inv.not_begun]
  constructor
  · rw [count]
    exact ⟨Nat.lt_succ_of_le inside.1, Nat.lt_succ_of_le inside.2⟩
  · intro n busy
    rw [count]
    by_cases new : n = m.next
    · rw [new, self, here]
      exact ⟨Nat.lt_succ_self _, Nat.lt_succ_of_le inside.1⟩
    · rw [old new] at busy ⊢
      have bound := inv.bound n busy
      exact ⟨Nat.lt_succ_of_lt bound.1, Nat.lt_succ_of_lt bound.2⟩
  · intro other mapped
    rw [entry] at mapped
    exact (Option.some.inj mapped).symm
  · intro n busy
    by_cases new : n = m.next
    · rw [new, self]
      exact .inl here
    · rw [old new] at busy ⊢
      exact (others n busy).imp_right fun stuck => stuck.mono running calls
  · refine inv.single_update calls fun holds j _ also => ?_
    rw [here, own holds]
    exact inv.before (Pc.busy_of_holds also)
  · intro n holds
    by_cases new : n = m.next
    · rw [new, self] at holds ⊢
      rw [here, own holds, wraps, update_self]
      exact holds
    · rw [old new] at holds ⊢
      rw [wraps, update_of_ne (inv.before (Pc.busy_of_holds holds))]
      exact inv.locked n holds
  · intro k
    rw [sessions]
    by_cases new : k = m.next
    · rw [new, update_self]
      exact sound_new
    · rw [update_of_ne new]
      exact inv.sound k
  · intro k other
    rw [sessions]
    by_cases new : k = m.next
    · rw [new, update_self]
      exact dead_new
    · rw [update_of_ne new]
      exact dead k new other
  · exact .inl entry
  · intro n before
    rw [sessions]
    by_cases new : n = m.next
    · rw [new, self] at before
      rw [new, update_self]
      exact ⟨rfl, early before⟩
    · rw [old new] at before
      rw [update_of_ne new]
      exact ⟨(inv.fresh n before).1, fresh n new before⟩
  · intro n same
    by_cases new : n = m.next
    · rw [new, self]
      exact knows
    · rw [old new] at same ⊢
      exact know n new same
  · rw [entry]
    nofun

/-- The map has nothing, and all that had to do with the old wrap is over. -/
theorem Inv.connect_none (inv : m.Inv cur) (none : m.entry = none)
    (finished : ∀ n, (m.calls n).pc.underway = true → m.Stuck (m.calls n).wrap) :
    m.connect.Inv m.next := by
  have wraps : m.connect.wraps = update m.wraps m.next ⟨m.next, true⟩ := by simp [connect, none]
  have sessions : m.connect.sessions = update m.sessions m.next .new := by simp [connect, none]
  have owner : (m.connect.wraps m.next).s = m.next := by rw [wraps, update_self]
  refine inv.begins ⟨m.next, m.next, .configure⟩ rfl (by simp [connect, none])
    (by simp [connect, none]) wraps sessions (by simp [connect, none])
    ⟨Nat.le_refl _, Nat.le_of_eq owner⟩ (fun n underway => .inr (finished n underway))
    (fun _ => rfl) ?_ nofun ?_ ?_ ?_
  · intro k _ _
    by_cases last : k = (m.wraps cur).s
    · rw [last]
      refine inv.link.resolve_left ?_
      rw [none]
      nofun
    · exact inv.dead k last
  · intro n new _
    rw [owner]
    exact new
  · refine ⟨fun _ => owner.symm, fun _ => ?_, fun _ => ?_, fun _ => by simp [connect, none]⟩
    all_goals
      rw [owner, sessions, update_self]
      rfl
  · intro n _ same
    refine knows_of_not_holds _ _ (Bool.eq_false_iff.mpr fun holds => ?_)
    exact inv.before (Pc.busy_of_holds holds) same

/-- The map has the wrap that counts. -/
theorem Inv.connect_some (inv : m.Inv cur) {wrap : ℕ} (some_ : m.entry = some wrap) :
    m.connect.Inv cur := by
  have same := inv.mapped wrap some_
  subst same
  have wraps : m.connect.wraps = update m.wraps m.next ⟨m.next, false⟩ := by simp [connect, some_]
  have sessions : m.connect.sessions = update m.sessions m.next .new := by simp [connect, some_]
  have entry : m.connect.entry = some wrap := by simp [connect, some_]
  have owner : m.connect.wraps wrap = m.wraps wrap := by
    rw [wraps, update_of_ne (Nat.ne_of_lt inv.current.1)]
  have session : m.connect.sessions (m.wraps wrap).s = m.sessions (m.wraps wrap).s := by
    rw [sessions, update_of_ne (Nat.ne_of_lt inv.current.2)]
  refine inv.begins ⟨wrap, m.next, .acquire⟩ rfl (by simp [connect, some_])
    (by simp [connect, some_]) wraps sessions entry ?_ inv.wrap nofun ?_ ?_ ?_
    (knows_of_not_holds _ _ rfl) ?_
  · rw [owner]
    exact ⟨Nat.le_of_lt inv.current.1, Nat.le_of_lt inv.current.2⟩
  · intro k _ other
    rw [owner] at other
    exact inv.dead k other
  · intro _
    rw [owner]
    exact (Nat.ne_of_lt inv.current.2).symm
  · intro n _ before
    rw [owner]
    exact (inv.fresh n before).2
  · intro n _ here
    have knows := inv.knows n here
    refine ⟨?_, ?_, ?_, fun _ => entry⟩
    · rw [owner]
      exact knows.ses
    · rw [owner, session]
      exact knows.idle
    · rw [owner, session]
      exact knows.quiet

/-- Nobody but the call has the lock of the wrap that counts. -/
def Alone (m : Manager) (cur n : ℕ) : Prop :=
  ∀ j, j ≠ n → (m.calls j).wrap = cur → (m.calls j).pc.holds = false

/-- A call at the wrap that counts goes on. It changes nothing but this wrap and the session in it.
What is to be shown is about the session, the entry and the call itself. -/
theorem Inv.move (inv : m.Inv cur) (alone : m.Alone cur n) (c : Call) (here : c.wrap = cur)
    (calls : next.calls = update m.calls n c) (running : (m.calls n).pc ≠ .abandoned)
    (inside : n < m.next) (count : next.next = m.next)
    (wraps : ∀ w, w ≠ cur → next.wraps w = m.wraps w)
    (owner : (next.wraps cur).s = (m.wraps cur).s ∨
      (next.wraps cur).s = n ∧ (next.sessions (m.wraps cur).s).Dead)
    (lock : c.pc.holds = true → (next.wraps cur).locked = true)
    (sessions : ∀ k, k ≠ (m.wraps cur).s → next.sessions k = m.sessions k)
    (sound : (next.sessions (m.wraps cur).s).Sound)
    (mapped : ∀ w, next.entry = some w → w = cur)
    (link : next.entry = some cur ∨ (next.sessions (next.wraps cur).s).Dead)
    (early : c.pc.early = true → (m.calls n).pc.early = true ∧ (next.wraps cur).s ≠ n)
    (knows : next.Knows cur c)
    (cause : next.entry = none →
      (next.sessions (next.wraps cur).s).Finalizing ∨ c.pc.vacant = true ∨
        c.pc.underway = false ∧ ∀ j, (m.calls j).pc.underway = true → m.Stuck (m.calls j).wrap) :
    next.Inv cur := by
  have self : next.calls n = c := by rw [calls, update_self]
  have old : ∀ {j : ℕ}, j ≠ n → next.calls j = m.calls j := by
    intro j other
    rw [calls, update_of_ne other]
  have away : ∀ {j : ℕ}, j ≠ n → (m.calls j).pc.holds = true → (m.calls j).wrap ≠ cur := by
    intro j other holds same
    rw [alone j other same] at holds
    cases holds
  constructor
  · rw [count]
    refine ⟨inv.current.1, ?_⟩
    rcases owner with same | ⟨own, -⟩
    · rw [same]
      exact inv.current.2
    · rw [own]
      exact inside
  · intro j busy
    rw [count]
    by_cases acting : j = n
    · rw [acting, self, here]
      exact ⟨inside, inv.current.1⟩
    · rw [old acting] at busy ⊢
      exact inv.bound j busy
  · exact mapped
  · intro j busy
    by_cases acting : j = n
    · rw [acting, self]
      exact .inl here
    · rw [old acting] at busy ⊢
      exact (inv.wrap j busy).imp_right fun stuck => stuck.mono running calls
  · refine inv.single_update calls fun _ j other holds => ?_
    rw [here]
    exact away other holds
  · intro j holds
    by_cases acting : j = n
    · rw [acting, self] at holds ⊢
      rw [here]
      exact lock holds
    · rw [old acting] at holds ⊢
      rw [wraps _ (away acting holds)]
      exact inv.locked j holds
  · intro k
    by_cases last : k = (m.wraps cur).s
    · rw [last]
      exact sound
    · rw [sessions k last]
      exact inv.sound k
  · intro k other
    by_cases last : k = (m.wraps cur).s
    · rcases owner with same | ⟨-, dead⟩
      · exact absurd (last.trans same.symm) other
      · rw [last]
        exact dead
    · rw [sessions k last]
      exact inv.dead k last
  · exact link
  · intro j before
    by_cases acting : j = n
    · rw [acting, self] at before
      rw [acting]
      rcases early before with ⟨earlier, distinct⟩
      rcases inv.fresh n earlier with ⟨fresh, other⟩
      rw [sessions n other]
      exact ⟨fresh, distinct.symm⟩
    · rw [old acting] at before
      rcases inv.fresh j before with ⟨fresh, other⟩
      rw [sessions j other]
      refine ⟨fresh, ?_⟩
      rcases owner with same | ⟨own, -⟩
      · rw [same]
        exact other
      · rw [own]
        exact acting
  · intro j same
    by_cases acting : j = n
    · rw [acting, self]
      exact knows
    · rw [old acting] at same ⊢
      exact knows_of_not_holds _ _ (alone j acting same)
  · intro none
    rcases cause none with finalizing | vacant | ⟨ended, stuck⟩
    · exact .inl finalizing
    · refine .inr (.inl ⟨n, ?_⟩)
      rw [self]
      exact ⟨here, vacant⟩
    · refine .inr (.inr fun j underway => ?_)
      by_cases acting : j = n
      · rw [acting, self, ended] at underway
        cases underway
      · rw [old acting] at underway ⊢
        exact (stuck j underway).mono running calls

/-- Nobody else has the lock that a call has. -/
theorem Inv.alone (inv : m.Inv cur) (holds : (m.calls n).pc.holds = true)
    (here : (m.calls n).wrap = cur) : m.Alone cur n := by
  refine fun j other same => Bool.eq_false_iff.mpr fun also => ?_
  exact other (inv.single j n also holds (same.trans here.symm))

theorem Inv.not_stuck (inv : m.Inv cur) (holds : (m.calls n).pc.holds = true)
    (running : (m.calls n).pc ≠ .abandoned) : ¬m.Stuck (m.calls n).wrap := by
  rintro ⟨j, abandoned, same⟩
  have both := inv.single j n (by rw [abandoned]; rfl) holds same
  rw [both] at abandoned
  exact running abandoned

/-- If the map has nothing, it was the session that deleted the entry, unless it was the call. -/
theorem Inv.finalizing (inv : m.Inv cur) (alone : m.Alone cur n)
    (underway : (m.calls n).pc.underway = true) (free : ¬m.Stuck (m.calls n).wrap)
    (filled : (m.calls n).pc.vacant = false) (none : m.entry = none) :
    (m.sessions (m.wraps cur).s).Finalizing := by
  rcases inv.cause none with finalizing | ⟨j, same, vacant⟩ | finished
  · exact finalizing
  · by_cases acting : j = n
    · rw [acting, filled] at vacant
      cases vacant
    · have outside := alone j acting same
      rw [Pc.holds_of_vacant vacant] at outside
      cases outside
  · exact absurd (finished n underway) free

/-- What a call that works with the session in the wrap knows. -/
theorem Inv.known (inv : m.Inv cur) (refers : (m.calls n).pc.refers = true) :
    (m.calls n).wrap = cur ∧ (m.calls n).ses = (m.wraps cur).s ∧ m.Knows cur (m.calls n) := by
  rcases Pc.holds_of_refers refers with ⟨holds, underway⟩
  have free := inv.not_stuck holds (Pc.not_abandoned underway)
  have here := (inv.wrap n underway).resolve_right free
  exact ⟨here, (inv.knows n here).ses refers, inv.knows n here⟩

/-- If the map has nothing, such a call finds the session in the wrap finalized. -/
theorem Inv.explained (inv : m.Inv cur) (refers : (m.calls n).pc.refers = true)
    (filled : (m.calls n).pc.vacant = false) (none : m.entry = none) :
    (m.sessions (m.wraps cur).s).Finalizing := by
  rcases Pc.holds_of_refers refers with ⟨holds, underway⟩
  exact inv.finalizing (inv.alone holds (inv.known refers).1) underway
    (inv.not_stuck holds (Pc.not_abandoned underway)) filled none

/-- A call that works with the session in the wrap changes it and goes to another place. -/
theorem Inv.act (inv : m.Inv cur) (refers : (m.calls n).pc.refers = true) (x : Session) (pc : Pc)
    (calls : next.calls = update m.calls n { m.calls n with pc := pc })
    (count : next.next = m.next) (wraps : next.wraps = m.wraps)
    (sessions : next.sessions = update m.sessions (m.wraps cur).s x)
    (mapped : ∀ w, next.entry = some w → w = cur)
    (early : pc.early = true → (m.calls n).pc.early = true)
    (sound : x.Sound) (link : next.entry = some cur ∨ x.Dead)
    (idle : pc.idle = true → x.Idle) (quiet : pc.quiet = true → x.Quiet)
    (ready : pc.ready = true → next.entry = some cur)
    (cause : next.entry = none → x.Finalizing ∨ pc.vacant = true) : next.Inv cur := by
  rcases Pc.holds_of_refers refers with ⟨holding, underway⟩
  have here := (inv.known refers).1
  have same : (next.wraps cur).s = (m.wraps cur).s := by rw [wraps]
  have session : next.sessions (m.wraps cur).s = x := by rw [sessions, update_self]
  refine inv.move (inv.alone holding here) { m.calls n with pc := pc } here calls
    (Pc.not_abandoned underway) (inv.bound n (Pc.busy_of_holds holding)).1 count
    (fun w _ => by rw [wraps]) (.inl same) ?_ (fun k other => by rw [sessions, update_of_ne other])
    ?_ mapped ?_ ?_ ?_ ?_
  · intro _
    rw [wraps, ← here]
    exact inv.locked n holding
  · rw [session]
    exact sound
  · rw [same, session]
    exact link
  · intro before
    rw [same]
    exact ⟨early before, (inv.fresh n (early before)).2.symm⟩
  · refine ⟨fun _ => ?_, fun set => ?_, fun set => ?_, ready⟩
    · rw [same]
      exact (inv.knows n here).ses refers
    · rw [same, session]
      exact idle set
    · rw [same, session]
      exact quiet set
  · rw [same, session]
    exact fun none => (cause none).imp_right .inl

/-- Such a call goes to another place without a change. -/
theorem Inv.goto (inv : m.Inv cur) (refers : (m.calls n).pc.refers = true) (pc : Pc)
    (early : pc.early = true → (m.calls n).pc.early = true)
    (idle : pc.idle = true → (m.sessions (m.wraps cur).s).Idle)
    (quiet : pc.quiet = true → (m.sessions (m.wraps cur).s).Quiet)
    (ready : pc.ready = true → m.entry = some cur)
    (filled : (m.calls n).pc.vacant = false) : (m.goto n pc).Inv cur := by
  refine inv.act refers (m.sessions (m.wraps cur).s) pc rfl rfl rfl
    (update_eq_self _ _).symm inv.mapped early (inv.sound _) inv.link idle quiet ready ?_
  exact fun none => .inl (inv.explained refers filled none)

theorem Inv.acquires (inv : m.Inv cur) (here : (m.calls n).pc = .acquire) (succeeds : Bool) :
    (m.proceed n succeeds).Inv cur := by
  simp only [proceed, here]
  split
  · exact inv
  · rename_i open_
    have underway : (m.calls n).pc.underway = true := by rw [here]; rfl
    have busy : (m.calls n).pc ≠ .returned := by rw [here]; nofun
    have free : ¬m.Stuck (m.calls n).wrap := by
      rintro ⟨j, abandoned, same⟩
      have locked := inv.locked j (by rw [abandoned]; rfl)
      rw [same] at locked
      exact open_ locked
    have current : (m.calls n).wrap = cur := (inv.wrap n underway).resolve_right free
    have alone : m.Alone cur n := by
      intro j _ same
      refine Bool.eq_false_iff.mpr fun holds => open_ ?_
      rw [current, ← same]
      exact inv.locked j holds
    have finalizing := inv.finalizing alone underway free (by rw [here]; rfl)
    rw [current]
    refine inv.move alone ⟨cur, (m.wraps cur).s, .setOnline⟩ rfl rfl (Pc.not_abandoned underway)
      (inv.bound n busy).1 rfl (fun w other => update_of_ne other _ _) (.inl (by simp))
      (fun _ => by simp) (fun _ _ => rfl) (inv.sound _) inv.mapped ?_ ?_ ?_ ?_
    · simpa using inv.link
    · intro _
      have fresh := inv.fresh n (by rw [here]; rfl)
      exact ⟨by rw [here]; rfl, by simpa using fresh.2.symm⟩
    · exact ⟨fun _ => by simp, nofun, nofun, nofun⟩
    · intro none
      left
      simpa using finalizing none

theorem Inv.swaps (inv : m.Inv cur) (here : (m.calls n).pc = .swap) (succeeds : Bool) :
    (m.proceed n succeeds).Inv cur := by
  have holds : (m.calls n).pc.holds = true := by rw [here]; rfl
  rcases inv.known (by rw [here]; rfl) with ⟨current, -, knows⟩
  have dead := (inv.sound _).dead (knows.idle (by rw [here]; rfl)) (knows.quiet (by rw [here]; rfl))
  rcases inv.fresh n (by rw [here]; rfl) with ⟨fresh, -⟩
  simp only [proceed, here]
  rw [current]
  refine inv.move (inv.alone holds current) ⟨cur, n, .store⟩ rfl rfl (by rw [here]; nofun)
    (inv.bound n (Pc.busy_of_holds holds)).1 rfl (fun w other => update_of_ne other _ _)
    (.inr ⟨by simp, dead⟩) (fun _ => ?_) (fun _ _ => rfl) (inv.sound _) inv.mapped ?_ nofun ?_
    fun _ => .inr (.inl rfl)
  · have locked := inv.locked n holds
    rw [current] at locked
    simpa using locked
  · right
    simp [fresh, dead_new]
  · refine ⟨fun _ => by simp, fun _ => ?_, fun _ => ?_, nofun⟩
    all_goals
      simp only [update_self, fresh]
      rfl

/-- A call gives back the lock of an older wrap. -/
theorem Inv.leaves (inv : m.Inv cur) (here : (m.calls n).pc = .unlock)
    (older : (m.calls n).wrap ≠ cur) (succeeds : Bool) : (m.proceed n succeeds).Inv cur := by
  have holds : (m.calls n).pc.holds = true := by rw [here]; rfl
  have running : (m.calls n).pc ≠ .abandoned := by rw [here]; nofun
  simp only [proceed, here]
  have old : ∀ {j : ℕ}, j ≠ n →
      update m.calls n { m.calls n with pc := .returned } j = m.calls j :=
    fun other => update_of_ne other _ _
  have left : ∀ {j : ℕ} {good : Pc → Bool}, good .returned = false →
      good (update m.calls n { m.calls n with pc := .returned } j).pc = true → j ≠ n := by
    rintro j good bad holds rfl
    rw [update_self, bad] at holds
    cases holds
  have owner : update m.wraps (m.calls n).wrap
      { m.wraps (m.calls n).wrap with locked := false } cur = m.wraps cur :=
    update_of_ne older.symm _ _
  constructor
  · simpa only [owner] using inv.current
  · intro j busy
    by_cases acting : j = n
    · rw [acting]
      simpa using inv.bound n (Pc.busy_of_holds holds)
    · simp only [old acting] at busy ⊢
      exact inv.bound j busy
  · exact inv.mapped
  · intro j underway
    have other := left rfl underway
    simp only [old other] at underway ⊢
    exact (inv.wrap j underway).imp_right fun stuck => stuck.mono running rfl
  · exact inv.single_update rfl (absurd · Bool.false_ne_true)
  · intro j also
    have other := left rfl also
    simp only [old other] at also ⊢
    have away : (m.calls j).wrap ≠ (m.calls n).wrap :=
      fun same => other (inv.single j n also holds same)
    rw [update_of_ne away]
    exact inv.locked j also
  · exact inv.sound
  · simpa only [owner] using inv.dead
  · simpa only [owner] using inv.link
  · intro j early
    have other := left rfl early
    simp only [old other, owner] at early ⊢
    exact inv.fresh j early
  · intro j same
    by_cases acting : j = n
    · refine knows_of_not_holds _ _ ?_
      rw [acting]
      simp [Pc.holds]
    · simp only [old acting] at same ⊢
      have knows := inv.knows j same
      refine ⟨?_, ?_, ?_, knows.stored⟩
      · simpa only [owner] using knows.ses
      · simpa only [owner] using knows.idle
      · simpa only [owner] using knows.quiet
  · intro none
    simp only [owner]
    rcases inv.cause none with finalizing | ⟨j, same, vacant⟩ | finished
    · exact .inl finalizing
    · have other : j ≠ n := by
        rintro rfl
        exact older same
      refine .inr (.inl ⟨j, ?_⟩)
      rw [old other]
      exact ⟨same, vacant⟩
    · refine .inr (.inr fun j underway => ?_)
      have other := left rfl underway
      simp only [old other] at underway ⊢
      exact (finished j underway).mono running rfl

theorem Inv.unlocks (inv : m.Inv cur) (here : (m.calls n).pc = .unlock) (succeeds : Bool) :
    (m.proceed n succeeds).Inv cur := by
  have holds : (m.calls n).pc.holds = true := by rw [here]; rfl
  have running : (m.calls n).pc ≠ .abandoned := by rw [here]; nofun
  by_cases current : (m.calls n).wrap = cur
  · have alone := inv.alone holds current
    simp only [proceed, here]
    refine inv.move alone { m.calls n with pc := .returned } current rfl running
      (inv.bound n (Pc.busy_of_holds holds)).1 rfl ?_ ?_ nofun (fun _ _ => rfl) (inv.sound _)
      inv.mapped ?_ nofun (knows_of_not_holds _ _ rfl) ?_
    · intro w other
      rw [current]
      exact update_of_ne other _ _
    · left
      simp [current]
    · simpa [current] using inv.link
    · intro none
      rcases inv.cause none with finalizing | ⟨j, same, vacant⟩ | finished
      · left
        simpa [current] using finalizing
      · by_cases acting : j = n
        · rw [acting, here] at vacant
          cases vacant
        · have outside := alone j acting same
          rw [Pc.holds_of_vacant vacant] at outside
          cases outside
      · exact .inr (.inr ⟨rfl, finished⟩)
  · exact inv.leaves here current succeeds

theorem Inv.looks (inv : m.Inv cur) (here : (m.calls n).pc = .setOnline) (succeeds : Bool) :
    (m.proceed n succeeds).Inv cur := by
  have refers : (m.calls n).pc.refers = true := by rw [here]; rfl
  have early : (m.calls n).pc.early = true := by rw [here]; rfl
  have filled : (m.calls n).pc.vacant = false := by rw [here]; rfl
  simp only [proceed, here]
  split
  · split
    · exact inv.goto refers .stop (fun _ => early) nofun nofun nofun filled
    · exact inv.goto refers .unlock nofun nofun nofun nofun filled
  · exact inv.goto refers (.wait false) (fun _ => early) nofun nofun nofun filled

theorem Inv.stops (inv : m.Inv cur) (here : (m.calls n).pc = .stop) (succeeds : Bool) :
    (m.proceed n succeeds).Inv cur := by
  have refers : (m.calls n).pc.refers = true := by rw [here]; rfl
  have filled : (m.calls n).pc.vacant = false := by rw [here]; rfl
  rcases inv.known refers with ⟨-, ses, -⟩
  simp only [proceed, here]
  rw [ses]
  refine inv.act refers _ (.wait true) rfl rfl rfl ?_ inv.mapped (fun _ => by rw [here]; rfl)
    ((inv.sound _).step .close) (inv.link.imp_right fun dead => (dead.step .close).1) nofun nofun
    nofun ?_
  · simp [Manager.goto, setSession, ses]
  · intro none
    exact .inl ((inv.sound _).finalizing (inv.explained refers filled none) .close)

theorem Inv.waits (inv : m.Inv cur) {stopping : Bool} (here : (m.calls n).pc = .wait stopping)
    (succeeds : Bool) : (m.proceed n succeeds).Inv cur := by
  have refers : (m.calls n).pc.refers = true := by rw [here]; rfl
  have early : (m.calls n).pc.early = true := by rw [here]; rfl
  rcases inv.known refers with ⟨-, ses, -⟩
  simp only [proceed, here]
  rw [ses]
  split
  · exact inv
  · rename_i finished
    exact inv.goto refers (.timer stopping) (fun _ => early) (fun _ => Bool.eq_false_iff.mpr finished)
      nofun nofun (by rw [here]; rfl)

theorem not_ready_waited {stopping : Bool} (ready : (waited stopping).ready = true) : False := by
  cases stopping <;> cases ready

theorem Inv.stopsTimer (inv : m.Inv cur) {stopping : Bool}
    (here : (m.calls n).pc = .timer stopping) (succeeds : Bool) :
    (m.proceed n succeeds).Inv cur := by
  have refers : (m.calls n).pc.refers = true := by rw [here]; rfl
  have early : (m.calls n).pc.early = true := by rw [here]; rfl
  have filled : (m.calls n).pc.vacant = false := by rw [here]; rfl
  rcases inv.known refers with ⟨-, ses, knows⟩
  have idle := knows.idle (by rw [here]; rfl)
  simp only [proceed, here]
  rw [ses]
  split
  · rename_i armed
    -- a timer that runs is the only thing to come
    have single := (inv.sound (m.wraps cur).s).single
    simp only [pending, armed, Bool.toNat_true] at single
    have quiet : Quiet { m.sessions (m.wraps cur).s with armed := false } := by
      change 0 + (m.sessions (m.wraps cur).s).fired +
        (m.sessions (m.wraps cur).s).working.toNat = 0
      omega
    refine inv.act refers { m.sessions (m.wraps cur).s with armed := false } (waited stopping) rfl
      rfl rfl (by simp [Manager.goto, setSession, ses]) inv.mapped (fun _ => early)
      ((inv.sound _).mono rfl rfl rfl ?_)
      (inv.link.imp_right fun dead => { dead with armed := rfl })
      (fun _ => idle) (fun _ => quiet) (fun ready => (not_ready_waited ready).elim)
      fun none => .inl (inv.explained refers filled none)
    exact Nat.le_trans (Nat.le_of_eq quiet) (Nat.zero_le _)
  · exact inv.goto refers (.timerLock stopping) (fun _ => early) (fun _ => idle)
      (absurd · Bool.false_ne_true) (absurd · Bool.false_ne_true) filled

theorem Inv.passesTimer (inv : m.Inv cur) {stopping : Bool}
    (here : (m.calls n).pc = .timerLock stopping) {succeeds : Bool}
    (timely : m.Timely (.proceed n succeeds)) : (m.proceed n succeeds).Inv cur := by
  have refers : (m.calls n).pc.refers = true := by rw [here]; rfl
  have early : (m.calls n).pc.early = true := by rw [here]; rfl
  rcases inv.known refers with ⟨-, ses, knows⟩
  have expired := timely stopping here
  simp only [proceed, here]
  rw [ses] at expired ⊢
  split
  · exact inv
  · rename_i unlocked
    have none : (m.sessions (m.wraps cur).s).callback = none := by simpa using unlocked
    rcases expired none with ⟨armed, fired⟩
    have quiet : (m.sessions (m.wraps cur).s).Quiet := by
      simp [Quiet, pending, armed, fired, working, none]
    exact inv.goto refers (waited stopping) (fun _ => early)
      (fun _ => knows.idle (by rw [here]; rfl)) (fun _ => quiet)
      (fun ready => (not_ready_waited ready).elim) (by rw [here]; rfl)

theorem Inv.checks (inv : m.Inv cur) (here : (m.calls n).pc = .check) (succeeds : Bool) :
    (m.proceed n succeeds).Inv cur := by
  have refers : (m.calls n).pc.refers = true := by rw [here]; rfl
  have early : (m.calls n).pc.early = true := by rw [here]; rfl
  have filled : (m.calls n).pc.vacant = false := by rw [here]; rfl
  rcases inv.known refers with ⟨-, ses, knows⟩
  have idle := knows.idle (by rw [here]; rfl)
  have quiet := knows.quiet (by rw [here]; rfl)
  simp only [proceed, here]
  rw [ses]
  split
  · exact inv.goto refers .swap (fun _ => early) (fun _ => idle) (fun _ => quiet)
      (absurd · Bool.false_ne_true) filled
  · rename_i kept
    -- a session that is not finalized has not deleted the entry
    have stored : m.entry = some cur := by
      cases entry : m.entry with
      | some wrap => rw [inv.mapped wrap entry]
      | none =>
          rcases inv.explained refers filled entry with finalized | mark | mark
          · exact absurd finalized kept
          · rw [(idle_iff.mp idle).2] at mark
            cases mark
          · have silent := quiet.working
            simp [working, mark] at silent
    exact inv.goto refers .configure (absurd · Bool.false_ne_true) (fun _ => idle) (fun _ => quiet)
      (fun _ => stored) filled

theorem Inv.signals (inv : m.Inv cur) (here : (m.calls n).pc = .signalClose) (succeeds : Bool) :
    (m.proceed n succeeds).Inv cur := by
  have refers : (m.calls n).pc.refers = true := by rw [here]; rfl
  have early : (m.calls n).pc.early = true := by rw [here]; rfl
  rcases inv.known refers with ⟨-, ses, knows⟩
  have idle := knows.idle (by rw [here]; rfl)
  have quiet := knows.quiet (by rw [here]; rfl)
  simp only [proceed, here]
  rw [ses]
  split
  · exact inv.goto refers .swap (fun _ => early) (fun _ => idle) (fun _ => quiet) nofun
      (by rw [here]; rfl)
  · exact inv.act refers _ .finalize rfl rfl rfl (update_eq_self _ _).symm nofun (fun _ => early)
      (inv.sound _) (.inr ((inv.sound _).dead idle quiet)) (fun _ => idle) (fun _ => quiet) nofun
      fun _ => .inr rfl

theorem Inv.finalizes (inv : m.Inv cur) (here : (m.calls n).pc = .finalize) (succeeds : Bool) :
    (m.proceed n succeeds).Inv cur := by
  have refers : (m.calls n).pc.refers = true := by rw [here]; rfl
  rcases inv.known refers with ⟨-, ses, knows⟩
  have idle := knows.idle (by rw [here]; rfl)
  have quiet := knows.quiet (by rw [here]; rfl)
  have dead := (inv.sound _).dead idle quiet
  simp only [proceed, here]
  rw [ses]
  exact inv.act refers { m.sessions (m.wraps cur).s with finalized := true } .swap rfl rfl rfl
    (by simp [Manager.goto, setSession, ses]) inv.mapped (fun _ => by rw [here]; rfl)
    ((inv.sound _).mono rfl rfl rfl (Nat.le_refl _))
    (.inr ⟨dead.1, dead.2, dead.3, dead.4, dead.5, dead.6, dead.7⟩) (fun _ => idle)
    (fun _ => quiet) nofun fun _ => .inl (.inl rfl)

theorem Inv.stores (inv : m.Inv cur) (here : (m.calls n).pc = .store) (succeeds : Bool) :
    (m.proceed n succeeds).Inv cur := by
  have refers : (m.calls n).pc.refers = true := by rw [here]; rfl
  rcases inv.known refers with ⟨current, -, knows⟩
  simp only [proceed, here]
  rw [current]
  exact inv.act refers _ .configure rfl rfl rfl (update_eq_self _ _).symm
    (fun w same => (Option.some.inj same).symm) nofun (inv.sound _) (.inl rfl)
    (fun _ => knows.idle (by rw [here]; rfl)) (fun _ => knows.quiet (by rw [here]; rfl))
    (fun _ => rfl) nofun

theorem Inv.configures (inv : m.Inv cur) (here : (m.calls n).pc = .configure) (succeeds : Bool) :
    (m.proceed n succeeds).Inv cur := by
  have refers : (m.calls n).pc.refers = true := by rw [here]; rfl
  rcases inv.known refers with ⟨-, ses, knows⟩
  have idle := knows.idle (by rw [here]; rfl)
  have quiet := knows.quiet (by rw [here]; rfl)
  have stored := knows.stored (by rw [here]; rfl)
  simp only [proceed, here]
  rw [ses]
  split
  · exact inv.act refers { m.sessions (m.wraps cur).s with finalized := false } .start rfl rfl rfl
      (by simp [Manager.goto, setSession, ses]) inv.mapped nofun
      ((inv.sound _).mono rfl rfl rfl (Nat.le_refl _)) (.inl stored) (fun _ => idle)
      (fun _ => quiet) (fun _ => stored) fun none => absurd (stored.symm.trans none) nofun
  · exact inv.act refers _ .abandoned rfl rfl rfl (update_eq_self _ _).symm nofun nofun
      (inv.sound _) (.inr ((inv.sound _).dead idle quiet)) nofun nofun nofun fun _ => .inr rfl

theorem Inv.starts (inv : m.Inv cur) (here : (m.calls n).pc = .start) (succeeds : Bool) :
    (m.proceed n succeeds).Inv cur := by
  have refers : (m.calls n).pc.refers = true := by rw [here]; rfl
  rcases inv.known refers with ⟨-, ses, knows⟩
  rcases idle_iff.mp (knows.idle (by rw [here]; rfl)) with ⟨-, closing⟩
  have quiet := knows.quiet (by rw [here]; rfl)
  have stored := knows.stored (by rw [here]; rfl)
  have sound := inv.sound (m.wraps cur).s
  simp only [proceed, here]
  rw [ses]
  split
  · exact inv.act refers { m.sessions (m.wraps cur).s with isOnline := true, conn := true } .unlock
      rfl rfl rfl (by simp [Manager.goto, setSession, ses]) inv.mapped nofun
      ⟨fun _ => .inl rfl, fun some_ => absurd closing some_, sound.single, fun _ => quiet⟩
      (.inl stored) nofun nofun nofun fun none => absurd (stored.symm.trans none) nofun
  · exact inv.goto refers .abandoned nofun nofun nofun nofun (by rw [here]; rfl)

theorem Inv.proceed (inv : m.Inv cur) {succeeds : Bool} (timely : m.Timely (.proceed n succeeds)) :
    (m.proceed n succeeds).Inv cur := by
  cases here : (m.calls n).pc with
  | acquire => exact inv.acquires here succeeds
  | setOnline => exact inv.looks here succeeds
  | stop => exact inv.stops here succeeds
  | wait stopping => exact inv.waits here succeeds
  | timer stopping => exact inv.stopsTimer here succeeds
  | timerLock stopping => exact inv.passesTimer here timely
  | check => exact inv.checks here succeeds
  | signalClose => exact inv.signals here succeeds
  | finalize => exact inv.finalizes here succeeds
  | swap => exact inv.swaps here succeeds
  | store => exact inv.stores here succeeds
  | configure => exact inv.configures here succeeds
  | start => exact inv.starts here succeeds
  | unlock => exact inv.unlocks here succeeds
  | abandoned => simpa only [Manager.proceed, here] using inv
  | returned => simpa only [Manager.proceed, here] using inv

theorem Inv.step (inv : m.Inv cur) {op : Op} (timely : m.Timely op) : ∃ cur, (m.step op).Inv cur := by
  cases op with
  | connect =>
      cases entry : m.entry with
      | none => exact ⟨m.next, inv.connect_none entry (timely entry)⟩
      | some wrap => exact ⟨cur, inv.connect_some entry⟩
  | proceed n succeeds => exact ⟨cur, inv.proceed timely⟩
  | session k event => exact ⟨cur, inv.handle k event⟩

end Inv

/-- In every run, at every time, at most one session is online and the map has it, if calls and
callbacks come in time. -/
theorem exclusive_run (AllowReplace : Bool) (ops : List Op)
    (timely : Along step Timely (new AllowReplace) ops) (n : ℕ) :
    ((ops.take n).foldl step (new AllowReplace)).Exclusive := by
  rcases timely.always (fun m => ∃ cur, m.Inv cur) (fun _ _ ⟨_, inv⟩ fine => inv.step fine)
    ⟨0, inv_new AllowReplace⟩ n with ⟨cur, inv⟩
  exact inv.exclusive

def sampleFirst : List Op := [.connect, .proceed 1 true, .proceed 1 true, .proceed 1 true]

/-- A second call takes the session over, while the old connection is closed. -/
def sampleTakeover : List Op :=
  sampleFirst ++ [.connect] ++ List.replicate 3 (.proceed 2 true) ++
    List.replicate 5 (.session 1 (.disconnect false)) ++ List.replicate 8 (.proceed 2 true)

def sampleEnd : Manager := sampleTakeover.foldl step (new true)

theorem sampleTakeover_exclusive :
    (sampleEnd.sessions 2).isOnline = true ∧ (sampleEnd.sessions 1).isOnline = false ∧
      sampleEnd.Exclusive := by
  refine ⟨by decide, by decide, exclusive_run true sampleTakeover ?_ sampleTakeover.length⟩
  exact ⟨nofun, nofun, nofun, nofun, nofun, nofun, nofun, nofun,
    trivial, trivial, trivial, trivial, trivial, nofun, nofun, fun _ _ _ => ⟨rfl, rfl⟩, nofun,
    nofun, nofun, nofun, nofun, trivial⟩

/-- A second call has found the wrap of the first when the connection of the first is closed and the
entry deleted. A third call finds nothing, and both go online. -/
def sampleRace : List Op :=
  sampleFirst ++ [.connect, .session 1 .close] ++ List.replicate 5 (.session 1 (.disconnect false)) ++
    [.connect] ++ List.replicate 3 (.proceed 3 true) ++ List.replicate 10 (.proceed 2 true)

def raceEnd : Manager := sampleRace.foldl step (new true)

theorem sampleRace_not_exclusive :
    (raceEnd.sessions 2).isOnline = true ∧ (raceEnd.sessions 3).isOnline = true ∧
      ¬raceEnd.Exclusive := by
  refine ⟨by decide, by decide, fun exclusive => ?_⟩
  have same := exclusive.unique 2 3 (by decide) (by decide)
  cases same

end Manager

end VolantMQ.Clients.Takeover
