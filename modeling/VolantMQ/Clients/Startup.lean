import VolantMQ.Clients.Stop
import VolantMQ.Clients.Subscriptions

/-!
# Loading sessions

At start the clients manager walks through the persisted sessions. A session that has expired in the
meantime is to be deleted, a will that has become due is to be published, and a session that still
waits is to be registered with its timer running. Both comparisons with the clock are the wrong way
round, and the session is registered under a key that a Go map cannot hold.
-/

namespace VolantMQ.Clients

open Lib Packet Topics

/-- The fields of `persistence.SessionState` that `loadSessions` reads. -/
structure SessionState where
  Version : ProtocolVersion
  Timestamp : Option Int
  /-- `len(state.Errors) != 0` -/
  Errors : Bool
  Subscriptions : Bytes
  Expire : Option SessionDelays

/-- A key of `sync.Map`. -/
inductive Key where
  | string (key : GoString)
  | bytes (key : Bytes)

/-- What `loadSessions` works on. -/
structure Startup where
  sessions : AList fun _ : GoString => Session Publish
  subs : AList fun _ : GoString => SubscriberConfig
  /-- The packets in `delayedWills`; a `nil` pointer is `none`. -/
  delayedWills : List (Option Publish)
  /-- The calls of `persistence.Delete`. -/
  deleted : List GoString
  /-- The calls of `persistence.SubscriptionsDelete`. -/
  subscriptionsDeleted : List GoString
  /-- The sessions reported to `systree`. -/
  created : List GoString

namespace Startup

/-- `m.sessions.Store`: a slice cannot be hashed. -/
def store (m : Startup) (key : Key) (ses : Session Publish) : Except (Fault PacketError) Startup :=
  match key with
  | .string id => .ok { m with sessions := m.sessions.insert id ses }
  | .bytes _ => .error .panic

/-- `uint32(val)` -/
def toUint32 (val : Int) : UInt32 := UInt32.ofNat (val % 2 ^ 32).toNat

/-- `will, _ = pkt.(*packet.Publish)` on what `packet.Decode` returns. -/
def decodeWill (version : ProtocolVersion) (data : Bytes) : Option Publish :=
  match decode version data with
  | .ok (.publish will, _) => some will
  | _ => none

/-- The part of the callback about the will: what is left of it, and its delay. -/
def loadWill (m : Startup) (now : Int) (version : ProtocolVersion) (since : Int)
    (delays : SessionDelays) : Startup × Option Publish × UInt32 :=
  if delays.WillIn ≠ .empty ∧ 0 < delays.WillData.length then
    let will := decodeWill version delays.WillData
    match delays.WillIn with
    | .number val =>
        let willIn := toUint32 val
        if now < since + seconds willIn then
          ({ m with delayedWills := m.delayedWills ++ [will] }, none, willIn)
        else (m, will, willIn)
    | _ => (m, will, 0)
  else (m, none, 0)

/-- The part of the callback about the expiry interval; it has no result if the callback returns. -/
def loadExpiry (m : Startup) (now : Int) (id : GoString) (since : Int) (delays : SessionDelays) :
    Startup × Option UInt32 :=
  match delays.ExpireIn with
  | .number val =>
      let expireIn := toUint32 val
      if now < since + seconds expireIn then ({ m with deleted := m.deleted ++ [id] }, none)
      else (m, some expireIn)
  | _ => (m, some 0)

/-- The part of the callback that creates the session and starts its timer. -/
def register (m : Startup) (now : Int) (id : GoString) (createdAt : Option Int)
    (will : Option Publish) (willIn expireIn : UInt32) : Except (Fault PacketError) Startup :=
  if will.isSome ∨ 0 < expireIn then
    let exp := if 0 < expireIn then some expireIn else none
    m.store (.bytes id) ((Session.new (parseRFC3339 (createdAt.getD 0))).reconfigure now false
      ⟨will, exp, willIn, false⟩ true)
  else .ok m

/-- The part of the callback under `state.Expire != nil`, and whether the callback goes on. -/
def loadDelays (m : Startup) (now : Int) (id : GoString) (state : SessionState)
    (delays : SessionDelays) : Except (Fault PacketError) (Startup × Bool) :=
  match delays.Since with
  | none => .ok ({ m with subscriptionsDeleted := m.subscriptionsDeleted ++ [id] }, false)
  | some since =>
      let since := parseRFC3339 since
      let (m, will, willIn) := m.loadWill now state.Version since delays
      match m.loadExpiry now id since delays with
      | (m, none) => .ok (m, false)
      | (m, some expireIn) =>
          (m.register now id state.Timestamp will willIn expireIn).map fun m => (m, true)

/-- The part of the callback about subscriptions. -/
def loadSubscriptions (m : Startup) (id : GoString) (record : Bytes) :
    Except (Fault PacketError) Startup :=
  if 0 < record.length then
    let m := { m with subscriptionsDeleted := m.subscriptionsDeleted ++ [id] }
    match loadSubscriber record with
    | .ok config => .ok { m with subs := m.subs.insert id config }
    | .error .panic => .error .panic
    | .error (.error _) => .ok m
  else .ok m

/-- The callback of `loadSessions`. -/
def loadSession (m : Startup) (now : Int) (id : GoString) (state : SessionState) :
    Except (Fault PacketError) Startup :=
  let m := if state.Errors then
      { m with subscriptionsDeleted := m.subscriptionsDeleted ++ [id] } else m
  let proceed (m : Startup) :=
    (m.loadSubscriptions id state.Subscriptions).map fun m =>
      { m with created := m.created ++ [id] }
  match state.Expire with
  | none => proceed m
  | some delays =>
      match m.loadDelays now id state delays with
      | .error fault => .error fault
      | .ok (m, false) => .ok m
      | .ok (m, true) => proceed m

/-- `loadSessions` up to the subscribers and wills it leaves to be created and published. -/
def loadSessions (now : Int) (entries : List (GoString × SessionState)) :
    Except (Fault PacketError) Startup :=
  entries.foldlM (fun m entry => m.loadSession now entry.1 entry.2) ⟨∅, ∅, [], [], [], []⟩

/-- A will is persisted. -/
def hasWill (delays : SessionDelays) : Prop := delays.WillIn ≠ .empty ∧ delays.WillData ≠ []

/-- The texts are absent or numbers of 32 bits, and a persisted will is a PUBLISH. -/
structure WellFormed (version : ProtocolVersion) (delays : SessionDelays) : Prop where
  expireIn : delays.ExpireIn = .empty ∨ ∃ e : UInt32, delays.ExpireIn = .number e.toNat
  will : hasWill delays → ∃ (w : UInt32) (will : Publish), delays.WillIn = .number w.toNat ∧
    decodeWill version delays.WillData = some will

/-- An interval from `since` is over. -/
def Elapsed (now since : Int) (interval : Decimal) : Prop :=
  ∃ n : UInt32, interval = .number n.toNat ∧ since + seconds n ≤ now

/-- What the callback makes of the delays of a session: it is deleted exactly when it has expired,
its will is published exactly when it is due and the session is not deleted, and otherwise the
session is registered under its identifier with whatever it still waits for. -/
structure Decided (m : Startup) (now : Int) (id : GoString) (state : SessionState)
    (delays : SessionDelays) (since : Int) (after : Startup) : Prop where
  deleted : after.deleted = m.deleted ++ [id] ∧ Elapsed now since delays.ExpireIn ∨
    after.deleted = m.deleted ∧ ¬Elapsed now since delays.ExpireIn
  published :
    let due := hasWill delays ∧ Elapsed now since delays.WillIn ∧ ¬Elapsed now since delays.ExpireIn
    after.delayedWills = m.delayedWills ++ [decodeWill state.Version delays.WillData] ∧ due ∨
      after.delayedWills = m.delayedWills ∧ ¬due
  registered : ¬Elapsed now since delays.ExpireIn →
    (hasWill delays ∧ ¬Elapsed now since delays.WillIn) ∨ delays.ExpireIn ≠ .empty →
    ∃ ses, after.sessions.lookup id = some ses ∧ ses.timer.isSome = true ∧
      (hasWill delays → ¬Elapsed now since delays.WillIn →
        ses.will = decodeWill state.Version delays.WillData) ∧
      (delays.ExpireIn ≠ .empty → ses.expireIn.isSome = true)

/-- The record of a session's subscriptions stops the broker. -/
def Breaks (record : Bytes) : Prop := ∃ version left, record = version :: left ∧ BreaksOff left

section Decisions

variable {m : Startup} {now since : Int} {id : GoString} {state : SessionState}
  {delays : SessionDelays}

theorem toUint32_toNat (n : UInt32) : toUint32 n.toNat = n := by
  have bound := n.toNat_lt
  have same : ((n.toNat : Int) % 2 ^ 32).toNat = n.toNat := by omega
  rw [toUint32, same, UInt32.ofNat_toNat]

theorem elapsed_number (n : UInt32) :
    Elapsed now since (.number n.toNat) ↔ since + seconds n ≤ now := by
  constructor
  · rintro ⟨other, same, passed⟩
    have equal : n.toNat = other.toNat := by simpa using same
    rwa [UInt32.toNat_inj.mp equal]
  · exact fun passed => ⟨n, rfl, passed⟩

theorem not_elapsed_empty : ¬Elapsed now since .empty := by
  rintro ⟨n, same, -⟩
  simp at same

/-- Reading the subscriptions does not change what was decided before. -/
theorem loadSubscriptions_keeps {after : Startup} {record : Bytes}
    (run : m.loadSubscriptions id record = .ok after) :
    after.deleted = m.deleted ∧ after.delayedWills = m.delayedWills ∧
      after.sessions = m.sessions := by
  simp only [loadSubscriptions] at run
  split at run
  · split at run
    · rw [← Except.ok.inj run]
      exact ⟨rfl, rfl, rfl⟩
    · simp at run
    · rw [← Except.ok.inj run]
      exact ⟨rfl, rfl, rfl⟩
  · rw [← Except.ok.inj run]
    exact ⟨rfl, rfl, rfl⟩

theorem loadSubscriptions_ok_iff {record : Bytes} :
    (∃ after, m.loadSubscriptions id record = .ok after) ↔ ¬Breaks record := by
  cases record with
  | nil =>
      refine ⟨fun _ => ?_, fun _ => ⟨m, rfl⟩⟩
      rintro ⟨version, left, same, -⟩
      simp at same
  | cons version left =>
      have panics := loadSubscriber_panics_iff version left
      have breaks : Breaks (version :: left) ↔ BreaksOff left := by simp [Breaks]
      rw [breaks, ← panics]
      simp only [loadSubscriptions, List.length_cons, Nat.zero_lt_succ, if_true]
      rcases loadSubscriber (version :: left) with (_ | _) | config <;> simp

theorem loadWill_of_none (absent : ¬hasWill delays) :
    m.loadWill now state.Version since delays = (m, none, 0) := by
  refine if_neg fun both => absent ⟨both.1, List.length_pos_iff.mp both.2⟩

theorem loadWill_of_some {w : UInt32} {will : Publish} (present : hasWill delays)
    (delay : delays.WillIn = .number w.toNat)
    (decoded : decodeWill state.Version delays.WillData = some will) :
    m.loadWill now state.Version since delays =
      if now < since + seconds w then
        ({ m with delayedWills := m.delayedWills ++ [some will] }, none, w)
      else (m, some will, w) := by
  have stored : delays.WillIn ≠ .empty ∧ 0 < delays.WillData.length :=
    ⟨present.1, List.length_pos_iff.mpr present.2⟩
  rw [loadWill, if_pos stored]
  simp only [delay, toUint32_toNat, decoded]

theorem loadExpiry_of_number {e : UInt32} (interval : delays.ExpireIn = .number e.toNat) :
    m.loadExpiry now id since delays =
      if now < since + seconds e then ({ m with deleted := m.deleted ++ [id] }, none)
      else (m, some e) := by
  rw [loadExpiry, interval]
  simp only [toUint32_toNat]

theorem loadExpiry_of_empty (interval : delays.ExpireIn = .empty) :
    m.loadExpiry now id since delays = (m, some 0) := by
  rw [loadExpiry, interval]

/-- No session is ever registered. -/
theorem register_eq (createdAt : Option Int) (will : Option Publish) (willIn expireIn : UInt32) :
    m.register now id createdAt will willIn expireIn =
      if will.isSome ∨ 0 < expireIn then .error .panic else .ok m := by
  rw [register]
  split <;> rfl

/-- What `loadDelays` leaves to be deleted when an expiry interval is persisted: the clock is
compared the wrong way round. -/
theorem deleted_of_expiry {e : UInt32} {text : Int} (parsed : delays.Since = some text)
    (interval : delays.ExpireIn = .number e.toNat) {after : Startup} {go : Bool}
    (run : m.loadDelays now id state delays = .ok (after, go)) :
    if now < parseRFC3339 text + seconds e then after.deleted = m.deleted ++ [id]
    else after.deleted = m.deleted := by
  have kept : (m.loadWill now state.Version (parseRFC3339 text) delays).1.deleted = m.deleted := by
    simp only [loadWill]
    repeat' split
    all_goals rfl
  simp only [loadDelays, parsed, loadExpiry_of_number interval] at run
  by_cases early : now < parseRFC3339 text + seconds e
  · rw [if_pos early]
    simp only [if_pos early, Except.ok.injEq, Prod.mk.injEq] at run
    rw [← run.1, ← kept]
  · rw [if_neg early]
    simp only [if_neg early, register_eq] at run
    split at run
    · simp [Except.map] at run
    · simp only [Except.map, Except.ok.injEq, Prod.mk.injEq] at run
      rw [← run.1, kept]

/-- The same for a will, when no expiry interval is persisted. -/
theorem delayedWills_of_will {w : UInt32} {will : Publish} {text : Int}
    (parsed : delays.Since = some text) (present : hasWill delays)
    (delay : delays.WillIn = .number w.toNat)
    (decoded : decodeWill state.Version delays.WillData = some will)
    (interval : delays.ExpireIn = .empty) {after : Startup} {go : Bool}
    (run : m.loadDelays now id state delays = .ok (after, go)) :
    now < parseRFC3339 text + seconds w ∧
      after.delayedWills = m.delayedWills ++ [some will] := by
  simp only [loadDelays, parsed, loadWill_of_some present delay decoded] at run
  by_cases early : now < parseRFC3339 text + seconds w
  · simp only [if_pos early, loadExpiry_of_empty interval, register_eq, Option.isSome_none,
      Bool.false_eq_true, UInt32.lt_irrefl, or_self, if_false, Except.map, Except.ok.injEq,
      Prod.mk.injEq] at run
    exact ⟨early, by rw [← run.1]⟩
  · simp only [if_neg early, loadExpiry_of_empty interval, register_eq, Option.isSome_some, true_or,
      if_true] at run
    simp [Except.map] at run

theorem loadDelays_of_nothing {text : Int} (parsed : delays.Since = some text)
    (absent : ¬hasWill delays) (interval : delays.ExpireIn = .empty) :
    m.loadDelays now id state delays = .ok (m, true) := by
  simp only [loadDelays, parsed, loadWill_of_none absent, loadExpiry_of_empty interval, register_eq,
    Option.isSome_none, Bool.false_eq_true, UInt32.lt_irrefl, or_self, if_false]
  rfl

/-- The callback starts from what it was given, except for one more call of the backend. -/
theorem loadSession_eq (held : state.Expire = some delays) :
    ∃ first : Startup, (first.deleted = m.deleted ∧ first.delayedWills = m.delayedWills ∧
        first.sessions = m.sessions) ∧
      m.loadSession now id state =
        match first.loadDelays now id state delays with
        | .error fault => .error fault
        | .ok (m, false) => .ok m
        | .ok (m, true) => (m.loadSubscriptions id state.Subscriptions).map
            fun m => { m with created := m.created ++ [id] } := by
  refine ⟨if state.Errors then
      { m with subscriptionsDeleted := m.subscriptionsDeleted ++ [id] } else m, ?_, ?_⟩
  · split <;> exact ⟨rfl, rfl, rfl⟩
  · simp only [loadSession, held]

/-- A callback that returns has decided on the delays, and nothing after that changes it. -/
theorem loadDelays_of_loadSession {after : Startup} (held : state.Expire = some delays)
    (run : m.loadSession now id state = .ok after) :
    ∃ (first decided : Startup) (go : Bool), (first.deleted = m.deleted ∧
        first.delayedWills = m.delayedWills ∧ first.sessions = m.sessions) ∧
      first.loadDelays now id state delays = .ok (decided, go) ∧
      after.deleted = decided.deleted ∧ after.delayedWills = decided.delayedWills := by
  rcases @loadSession_eq m now id state delays held with ⟨first, same, equation⟩
  rw [equation] at run
  split at run
  · simp at run
  · rename_i decided answer
    rw [← Except.ok.inj run]
    exact ⟨first, decided, false, same, answer, rfl, rfl⟩
  · rename_i decided answer
    rcases map_eq_ok.mp run with ⟨next, loaded, rfl⟩
    have kept := loadSubscriptions_keeps loaded
    exact ⟨first, decided, true, same, answer, kept.1, kept.2.1⟩

/-- The decisions about a persisted session are right exactly when there is nothing to decide: no
will and no expiry interval is persisted, and its subscriptions do not stop the broker. -/
theorem decided_iff (m : Startup) (now : Int) (id : GoString) {text : Int}
    (held : state.Expire = some delays) (parsed : delays.Since = some text)
    (wellFormed : WellFormed state.Version delays) :
    (∃ after, m.loadSession now id state = .ok after ∧
        Decided m now id state delays (parseRFC3339 text) after) ↔
      ¬hasWill delays ∧ delays.ExpireIn = .empty ∧ ¬Breaks state.Subscriptions := by
  constructor
  · rintro ⟨after, run, decided⟩
    rcases loadDelays_of_loadSession held run with ⟨first, middle, go, same, step, deleted, wills⟩
    have endless : delays.ExpireIn = .empty := by
      refine wellFormed.expireIn.resolve_right ?_
      rintro ⟨e, interval⟩
      have outcome := deleted_of_expiry parsed interval step
      have law := decided.deleted
      rw [interval, elapsed_number, deleted] at law
      rw [same.1] at outcome
      split at outcome <;> rw [outcome] at law <;> simp at law <;> omega
    have willless : ¬hasWill delays := by
      intro present
      rcases wellFormed.will present with ⟨w, will, delay, decoded⟩
      have outcome := delayedWills_of_will parsed present delay decoded endless step
      have law := decided.published
      simp only [delay, elapsed_number, wills, outcome.2, same.2.1] at law
      rcases law with ⟨-, -, due, -⟩ | ⟨unchanged, -⟩
      · omega
      · simp at unchanged
    refine ⟨willless, endless, ?_⟩
    rcases @loadSession_eq m now id state delays held with ⟨start, -, equation⟩
    rw [equation, loadDelays_of_nothing parsed willless endless] at run
    rw [← @loadSubscriptions_ok_iff start id]
    rcases map_eq_ok.mp run with ⟨next, loaded, -⟩
    exact ⟨next, loaded⟩
  · rintro ⟨willless, endless, sound⟩
    rcases @loadSession_eq m now id state delays held with ⟨start, same, equation⟩
    rcases (@loadSubscriptions_ok_iff start id _).mpr sound with ⟨next, loaded⟩
    have kept := loadSubscriptions_keeps loaded
    refine ⟨{ next with created := next.created ++ [id] }, ?_, ?_, ?_, ?_⟩
    · rw [equation, loadDelays_of_nothing parsed willless endless]
      simp only [loaded, Except.map]
    · exact .inr ⟨kept.1.trans same.1, by rw [endless]; exact not_elapsed_empty⟩
    · exact .inr ⟨kept.2.1.trans same.2.1, fun due => willless due.1⟩
    · intro _ waits
      rcases waits with will | interval
      · exact absurd will.1 willless
      · exact absurd endless interval

/-- A session of which no delays are persisted only has its subscriptions read. -/
theorem loadSession_ok_iff_of_none (m : Startup) (now : Int) (id : GoString)
    (held : state.Expire = none) :
    (∃ after, m.loadSession now id state = .ok after) ↔ ¬Breaks state.Subscriptions := by
  let start : Startup := if state.Errors then
    { m with subscriptionsDeleted := m.subscriptionsDeleted ++ [id] } else m
  have equation : m.loadSession now id state =
      (start.loadSubscriptions id state.Subscriptions).map
        fun m => { m with created := m.created ++ [id] } := by
    simp only [loadSession, held, start]
  rw [equation, ← @loadSubscriptions_ok_iff start id]
  cases start.loadSubscriptions id state.Subscriptions with
  | error fault => simp [Except.map]
  | ok next => simp [Except.map]

end Decisions

/-- The delays of a session, if any are persisted, can be read. -/
def Readable (state : SessionState) : Prop :=
  ∀ delays, state.Expire = some delays → delays.Since.isSome = true ∧
    WellFormed state.Version delays

/-- All calls of the callback return, and each decides right. -/
def DecidesAll (now : Int) : Startup → List (GoString × SessionState) → Prop
  | _, [] => True
  | m, (id, state) :: entries => ∃ after, m.loadSession now id state = .ok after ∧
      (∀ delays text, state.Expire = some delays → delays.Since = some text →
        Decided m now id state delays (parseRFC3339 text) after) ∧
      DecidesAll now after entries

/-- A session about which there is nothing to decide. -/
def Settled (state : SessionState) : Prop :=
  (∀ delays, state.Expire = some delays → ¬hasWill delays ∧ delays.ExpireIn = .empty) ∧
    ¬Breaks state.Subscriptions

/-- One call of the callback is right exactly when there is nothing to decide. -/
theorem decides_iff (m : Startup) (now : Int) (id : GoString) {state : SessionState}
    (readable : Readable state) :
    (∃ after, m.loadSession now id state = .ok after ∧
        ∀ delays text, state.Expire = some delays → delays.Since = some text →
          Decided m now id state delays (parseRFC3339 text) after) ↔ Settled state := by
  cases held : state.Expire with
  | none =>
      have settled : Settled state ↔ ¬Breaks state.Subscriptions := by simp [Settled, held]
      rw [settled, ← loadSession_ok_iff_of_none m now id held]
      simp
  | some delays =>
      rcases readable delays held with ⟨parsed, wellFormed⟩
      rcases Option.isSome_iff_exists.mp parsed with ⟨text, parsed⟩
      have settled : Settled state ↔
          ¬hasWill delays ∧ delays.ExpireIn = .empty ∧ ¬Breaks state.Subscriptions := by
        simp [Settled, held, and_assoc]
      rw [settled, ← decided_iff m now id held parsed wellFormed]
      refine exists_congr fun after => and_congr_right fun _ => ?_
      constructor
      · exact fun all => all delays text rfl parsed
      · rintro decided other begin ⟨⟩ same
        rwa [← Option.some.inj (parsed.symm.trans same)]

theorem decidesAll_iff (now : Int) {entries : List (GoString × SessionState)}
    (readable : ∀ entry ∈ entries, Readable entry.2) (m : Startup) :
    DecidesAll now m entries ↔ ∀ entry ∈ entries, Settled entry.2 := by
  induction entries generalizing m with
  | nil => simp [DecidesAll]
  | cons entry entries ih =>
      have rest : ∀ other ∈ entries, Readable other.2 := fun other member =>
        readable other (List.mem_cons_of_mem entry member)
      have here := decides_iff m now entry.1 (readable entry List.mem_cons_self)
      rw [List.forall_mem_cons, ← here]
      constructor
      · rintro ⟨after, run, decided, later⟩
        exact ⟨⟨after, run, decided⟩, (ih rest after).mp later⟩
      · rintro ⟨⟨after, run, decided⟩, later⟩
        exact ⟨after, run, decided, (ih rest after).mpr later⟩

theorem DecidesAll.returns {now : Int} {entries : List (GoString × SessionState)} {m : Startup}
    (all : DecidesAll now m entries) :
    ∃ after, entries.foldlM (fun m entry => m.loadSession now entry.1 entry.2) m = .ok after := by
  induction entries generalizing m with
  | nil => exact ⟨m, rfl⟩
  | cons entry entries ih =>
      rcases all with ⟨after, run, -, later⟩
      rw [List.foldlM_cons, run]
      exact ih later

/-- `loadSessions` returns with the right decision about every session exactly when there is nothing
to decide about any: no will and no expiry interval is persisted, and no record of subscriptions
stops the broker. -/
theorem loadSessions_decides_iff (now : Int) (entries : List (GoString × SessionState))
    (readable : ∀ entry ∈ entries, Readable entry.2) :
    ((∃ after, loadSessions now entries = .ok after) ∧
        DecidesAll now ⟨∅, ∅, [], [], [], []⟩ entries) ↔
      ∀ entry ∈ entries, Settled entry.2 := by
  rw [← decidesAll_iff now readable ⟨∅, ∅, [], [], [], []⟩]
  exact ⟨And.right, fun all => ⟨all.returns, all⟩⟩

/-- The client `c` left at the instant 0, with delays but without subscriptions. -/
def sampleEntry (delays : SessionDelays) : GoString × SessionState :=
  ([0x63], ⟨ProtocolV50, some 0, false, [], some delays⟩)

/-- The client `d` left at the same time with a subscription and nothing else. -/
def sampleSubscribed : GoString × SessionState :=
  ([0x64], ⟨ProtocolV50, some 0, false, ProtocolV50 :: entryBytes ⟨[0x61], ⟨7, 1, 0⟩⟩,
    some ⟨some 0, .empty, .empty, []⟩⟩)

theorem sampleSubscribed_whole : ¬Breaks sampleSubscribed.2.Subscriptions := by
  rintro ⟨version, left, same, breaks⟩
  cases same
  have fits : Fits ⟨[0x61], ⟨7, 1, 0⟩⟩ := by
    unfold Fits
    decide
  have panics := @loadEntries_of_breaksOff ∅ _ breaks
  rw [← List.append_nil (entryBytes _), loadEntries_entry fits, loadEntries_nil] at panics
  cases panics

/-- Two sessions that wait for nothing, one of them with a subscription. -/
theorem loadSessions_decides_nothing :
    (∃ after, loadSessions 0 [sampleEntry ⟨some 0, .empty, .empty, []⟩, sampleSubscribed] =
        .ok after) ∧
      DecidesAll 0 ⟨∅, ∅, [], [], [], []⟩
        [sampleEntry ⟨some 0, .empty, .empty, []⟩, sampleSubscribed] := by
  have absent : ¬hasWill ⟨some 0, .empty, .empty, []⟩ := fun will => will.1 rfl
  have members : ∀ good : SessionState → Prop, good (sampleEntry ⟨some 0, .empty, .empty, []⟩).2 →
      good sampleSubscribed.2 →
      ∀ entry ∈ [sampleEntry ⟨some 0, .empty, .empty, []⟩, sampleSubscribed], good entry.2 := by
    intro good first second
    rw [List.forall_mem_cons, List.forall_mem_singleton]
    exact ⟨first, second⟩
  refine (loadSessions_decides_iff 0 _ (members Readable ?_ ?_)).mpr (members Settled ?_ ?_)
  · rintro delays ⟨⟩
    exact ⟨rfl, .inl rfl, fun will => absurd will absent⟩
  · rintro delays ⟨⟩
    exact ⟨rfl, .inl rfl, fun will => absurd will absent⟩
  · refine ⟨?_, ?_⟩
    · rintro delays ⟨⟩
      exact ⟨absent, rfl⟩
    · rintro ⟨version, left, same, -⟩
      simp [sampleEntry] at same
  · refine ⟨?_, sampleSubscribed_whole⟩
    rintro delays ⟨⟩
    exact ⟨absent, rfl⟩

/-- A session that has ten seconds left is deleted, and once they are over the broker panics. -/
theorem loadSessions_deletes_early :
    (∃ after, loadSessions 0 [sampleEntry ⟨some 0, .number 10, .empty, []⟩] = .ok after ∧
        after.deleted = [[0x63]] ∧ after.sessions = ∅) ∧
      loadSessions (10 * second) [sampleEntry ⟨some 0, .number 10, .empty, []⟩] = .error .panic ∧
      ¬DecidesAll 0 ⟨∅, ∅, [], [], [], []⟩ [sampleEntry ⟨some 0, .number 10, .empty, []⟩] := by
  refine ⟨⟨_, rfl, rfl, rfl⟩, rfl, ?_⟩
  rintro ⟨after, run, decided, -⟩
  have first : loadSession ⟨∅, ∅, [], [], [], []⟩ 0 [0x63]
      (sampleEntry ⟨some 0, .number 10, .empty, []⟩).2 = .ok ⟨∅, ∅, [], [[0x63]], [], []⟩ := rfl
  have law := (decided _ 0 rfl rfl).deleted
  rw [← Except.ok.inj (first.symm.trans run)] at law
  rcases law with ⟨-, elapsed⟩ | ⟨same, -⟩
  · have past := (elapsed_number 10).mp elapsed
    revert past
    decide
  · simp at same

end Startup

end VolantMQ.Clients
