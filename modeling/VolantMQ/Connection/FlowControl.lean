import Mathlib.Algebra.Ring.Int.Defs
import Mathlib.Data.Finset.Card
import Mathlib.Data.Fintype.Card
import VolantMQ.Lib.Run
import VolantMQ.Packet.Types

/-!
# Flow control

The functions of `flowControl.go`. A packet that needs an acknowledgement takes an identifier and
a unit of the send quota, and gives both back when it is acknowledged. The identifier is searched
for in the order of a counter, by at most 65536 probes, so that one is found unless all are in use.

Zero is no legal identifier, but the counter passes it like any other number. The main result
says when `flowAcquire` returns it.
-/

namespace VolantMQ.Connection

open Lib Packet

/-- `atomic.AddInt32` -/
def addInt32 (x d : Int) : Int :=
  if (x + d) % 2 ^ 32 < 2 ^ 31 then (x + d) % 2 ^ 32 else (x + d) % 2 ^ 32 - 2 ^ 32

theorem addInt32_eq {x d : Int} (low : -2 ^ 31 ≤ x + d) (high : x + d < 2 ^ 31) :
    addInt32 x d = x + d := by
  unfold addInt32
  split <;> omega

/-- The parts of `connection.Type` that flow control uses. -/
structure Flow where
  SendQuota : Int
  flowCounter : UInt64
  flowInUse : Finset IDType
  /-- The channel `quit` is closed. -/
  quit : Bool

/-- The results of `flowAcquire`: `errExit`, or an identifier and whether the error is
`errQuotaExceeded`. -/
inductive Acquired where
  | exit
  | granted (id : IDType) (exceeded : Bool)

namespace Flow

/-- The state of a new connection. -/
def new (SendQuota : UInt16) : Flow := ⟨SendQuota.toNat, 0, ∅, false⟩

def flowReAcquire (s : Flow) (id : IDType) : Flow :=
  { s with SendQuota := addInt32 s.SendQuota (-1), flowInUse := insert id s.flowInUse }

/-- The loop of `flowAcquire` with the number of rounds left: the counter, the identifier and the
set of identifiers in use afterwards. -/
def probe : ℕ → UInt64 → Finset IDType → UInt64 × IDType × Finset IDType
  | 0, flowCounter, flowInUse => (flowCounter, flowCounter.toUInt16, flowInUse)
  | rounds + 1, flowCounter, flowInUse =>
      let flowCounter := flowCounter + 1
      let id := flowCounter.toUInt16
      if id ∈ flowInUse then probe rounds flowCounter flowInUse
      else (flowCounter, id, insert id flowInUse)

def flowAcquire (s : Flow) : Flow × Acquired :=
  if s.quit then (s, .exit)
  else
    let SendQuota := addInt32 s.SendQuota (-1)
    let (flowCounter, id, flowInUse) := probe 65536 s.flowCounter s.flowInUse
    ({ s with SendQuota, flowCounter, flowInUse }, .granted id (SendQuota == 0))

def flowRelease (s : Flow) (id : IDType) : Flow × Bool :=
  let SendQuota := addInt32 s.SendQuota 1
  ({ s with SendQuota, flowInUse := s.flowInUse.erase id }, SendQuota == 1)

/-- The identifier of the `j`-th round. -/
def candidate (flowCounter : UInt64) (j : ℕ) : IDType := UInt16.ofNat (flowCounter.toNat + j)

theorem candidate_one (flowCounter : UInt64) :
    (flowCounter + 1).toUInt16 = candidate flowCounter 1 := by
  rw [candidate, ← UInt16.toNat_inj, UInt64.toNat_toUInt16, UInt64.toNat_add, UInt16.toNat_ofNat']
  change (flowCounter.toNat + 1) % 2 ^ 64 % 2 ^ 16 = _
  omega

theorem candidate_succ (flowCounter : UInt64) (j : ℕ) :
    candidate (flowCounter + 1) j = candidate flowCounter (j + 1) := by
  rw [candidate, candidate, ← UInt16.toNat_inj, UInt16.toNat_ofNat', UInt16.toNat_ofNat',
    UInt64.toNat_add]
  change ((flowCounter.toNat + 1) % 2 ^ 64 + j) % 2 ^ 16 = _
  omega

/-- The search ends at the first candidate that is free. -/
theorem probe_of_free {rounds : ℕ} {flowCounter : UInt64} {flowInUse : Finset IDType} {j : ℕ}
    (positive : 1 ≤ j) (within : j ≤ rounds) (free : candidate flowCounter j ∉ flowInUse)
    (first : ∀ i, 1 ≤ i → i < j → candidate flowCounter i ∈ flowInUse) :
    probe rounds flowCounter flowInUse =
      (flowCounter + UInt64.ofNat j, candidate flowCounter j,
        insert (candidate flowCounter j) flowInUse) := by
  induction rounds generalizing flowCounter j with
  | zero => omega
  | succ rounds ih =>
      simp only [probe, candidate_one]
      rcases Nat.lt_or_ge 1 j with later | now
      · rw [if_pos (first 1 le_rfl later)]
        have shifted := @ih (flowCounter + 1) (j - 1) (by omega) (by omega)
          (by rwa [candidate_succ, Nat.sub_add_cancel positive])
          (fun i low high => by
            rw [candidate_succ]
            exact first (i + 1) (by omega) (by omega))
        rw [shifted, candidate_succ, Nat.sub_add_cancel positive]
        have counter : flowCounter + 1 + UInt64.ofNat (j - 1) = flowCounter + UInt64.ofNat j := by
          rw [UInt64.add_assoc, ← UInt64.ofNat_one, ← UInt64.ofNat_add,
            Nat.add_sub_cancel' positive]
        rw [counter]
      · have one : j = 1 := by omega
        subst one
        rw [if_neg free]
        rfl

theorem toNat_candidate (flowCounter : UInt64) (j : ℕ) :
    (candidate flowCounter j).toNat = (flowCounter.toNat + j) % 65536 := by
  rw [candidate, UInt16.toNat_ofNat']

/-- The rounds try 65536 different identifiers, so one of them is free unless all are in use. -/
theorem exists_candidate {flowInUse : Finset IDType} (some : flowInUse.card < 65536)
    (flowCounter : UInt64) :
    ∃ j, 1 ≤ j ∧ j ≤ 65536 ∧ candidate flowCounter j ∉ flowInUse := by
  by_contra all
  have inside : ∀ i ∈ Finset.range 65536, candidate flowCounter (i + 1) ∈ flowInUse := by
    intro i member
    rw [Finset.mem_range] at member
    by_contra free
    exact all ⟨i + 1, by omega, by omega, free⟩
  have apart : ∀ i ∈ Finset.range 65536, ∀ j ∈ Finset.range 65536,
      candidate flowCounter (i + 1) = candidate flowCounter (j + 1) → i = j := by
    intro i left j right same
    rw [Finset.mem_range] at left right
    rw [← UInt16.toNat_inj, toNat_candidate, toNat_candidate] at same
    omega
  have enough := Finset.card_le_card_of_injOn _ inside apart
  rw [Finset.card_range] at enough
  omega

theorem card_le (flowInUse : Finset IDType) : flowInUse.card ≤ 65536 := by
  have below : ∀ id ∈ flowInUse, id.toNat ∈ Finset.range 65536 := by
    intro id _
    rw [Finset.mem_range]
    exact id.toNat_lt
  have few := Finset.card_le_card_of_injOn UInt16.toNat below
    (fun _ _ _ _ same => UInt16.toNat_inj.mp same)
  rwa [Finset.card_range] at few

theorem mem_of_full {flowInUse : Finset IDType} (full : flowInUse.card = 65536) (id : IDType) :
    id ∈ flowInUse := by
  by_contra absent
  have more := card_le (insert id flowInUse)
  rw [Finset.card_insert_of_notMem absent] at more
  omega

/-- With everything in use, the search ends after the last round, and nothing is added. -/
theorem probe_of_full {flowInUse : Finset IDType} (full : flowInUse.card = 65536) (rounds : ℕ)
    (flowCounter : UInt64) : (probe rounds flowCounter flowInUse).2.2 = flowInUse := by
  induction rounds generalizing flowCounter with
  | zero => rfl
  | succ rounds ih =>
      simp only [probe, if_pos (mem_of_full full _)]
      exact ih _

/-- What `flowAcquire` does while the connection is open and an identifier is free. -/
theorem flowAcquire_spec {s : Flow} (opened : s.quit = false) (some : s.flowInUse.card < 65536) :
    ∃ j, 1 ≤ j ∧ j ≤ 65536 ∧ candidate s.flowCounter j ∉ s.flowInUse ∧
      (∀ i, 1 ≤ i → i < j → candidate s.flowCounter i ∈ s.flowInUse) ∧
      s.flowAcquire =
        ({ s with
            SendQuota := addInt32 s.SendQuota (-1)
            flowCounter := s.flowCounter + UInt64.ofNat j
            flowInUse := insert (candidate s.flowCounter j) s.flowInUse },
          .granted (candidate s.flowCounter j) (addInt32 s.SendQuota (-1) == 0)) := by
  have free := exists_candidate some s.flowCounter
  rcases Nat.find_spec free with ⟨positive, within, absent⟩
  have first : ∀ i, 1 ≤ i → i < Nat.find free → candidate s.flowCounter i ∈ s.flowInUse := by
    intro i low high
    by_contra other
    exact Nat.find_min free high ⟨low, by omega, other⟩
  refine ⟨Nat.find free, positive, within, absent, first, ?_⟩
  rw [flowAcquire, if_neg (by rw [opened]; decide), probe_of_free positive within absent first]

/-- An identifier returned by `flowAcquire`, with those in use at that moment. -/
structure Issue where
  id : IDType
  before : Finset IDType

/-- Flow control together with the identifiers returned so far. -/
structure Ledger where
  flow : Flow
  issued : List Issue

/-- What can happen to flow control. -/
inductive Op where
  | reAcquire (id : IDType)
  | acquire
  | release (id : IDType)
  | close

/-- One operation. -/
def step (s : Ledger) : Op → Ledger
  | .reAcquire id => { s with flow := s.flow.flowReAcquire id }
  | .acquire =>
      match s.flow.flowAcquire with
      | (flow, .exit) => { s with flow }
      | (flow, .granted id _) => ⟨flow, s.issued ++ [⟨id, s.flow.flowInUse⟩]⟩
  | .release id => { s with flow := (s.flow.flowRelease id).1 }
  | .close => { s with flow := { s.flow with quit := true } }

/-- Fewer than 65535 identifiers are in use at an acquire. -/
def Few (s : Ledger) (op : Op) : Prop := op = .acquire → s.flow.flowInUse.card < 65535

/-- At an acquire on an open connection, zero is in use, or an identifier is free that comes before
zero in the order of the counter. -/
def SkipsZero (s : Ledger) (op : Op) : Prop :=
  op = .acquire → s.flow.quit = false → 0 ∈ s.flow.flowInUse ∨
    ∃ k, s.flow.flowCounter.toNat % 65536 < k ∧ k ≤ 65535 ∧ UInt16.ofNat k ∉ s.flow.flowInUse

/-- The first free candidate is not zero exactly under that condition. -/
theorem first_ne_zero_iff {flowCounter : UInt64} {flowInUse : Finset IDType} {j : ℕ}
    (positive : 1 ≤ j) (within : j ≤ 65536) (free : candidate flowCounter j ∉ flowInUse)
    (first : ∀ i, 1 ≤ i → i < j → candidate flowCounter i ∈ flowInUse) :
    candidate flowCounter j ≠ 0 ↔ 0 ∈ flowInUse ∨
      ∃ k, flowCounter.toNat % 65536 < k ∧ k ≤ 65535 ∧ UInt16.ofNat k ∉ flowInUse := by
  have same : ∀ i k, (flowCounter.toNat + i) % 65536 = k % 65536 →
      candidate flowCounter i = UInt16.ofNat k := by
    intro i k modulo
    rw [← UInt16.toNat_inj, toNat_candidate, UInt16.toNat_ofNat', modulo]
  constructor
  · intro nonzero
    by_cases zero : (0 : IDType) ∈ flowInUse
    · exact .inl zero
    · right
      -- zero is a free candidate itself, so the search ended before it
      have atZero := same (65536 - flowCounter.toNat % 65536) 0 (by omega)
      have before : j < 65536 - flowCounter.toNat % 65536 := by
        rcases Nat.lt_trichotomy j (65536 - flowCounter.toNat % 65536) with less | equal | more
        · exact less
        · exact absurd (equal ▸ atZero) nonzero
        · have used := first _ (by omega) more
          rw [atZero] at used
          exact absurd used zero
      refine ⟨flowCounter.toNat % 65536 + j, by omega, by omega, ?_⟩
      rwa [← same j (flowCounter.toNat % 65536 + j) (by omega)]
  · rintro (zero | ⟨k, after, small, unused⟩) isZero
    · exact free (isZero ▸ zero)
    · have atK := same (k - flowCounter.toNat % 65536) k (by omega)
      have notLater : j ≤ k - flowCounter.toNat % 65536 := by
        by_contra later
        have used := first (k - flowCounter.toNat % 65536) (by omega) (by omega)
        rw [atK] at used
        exact unused used
      rw [← UInt16.toNat_inj, toNat_candidate, UInt16.toNat_zero] at isZero
      omega

/-- One step, with few identifiers in use at an acquire: what it returns is not in use, and not
zero exactly when the condition is met. -/
theorem step_issued {s : Ledger} {op : Op} (few : Few s op) :
    ((∀ issue ∈ (step s op).issued, issue.id ∉ issue.before) ↔
        ∀ issue ∈ s.issued, issue.id ∉ issue.before) ∧
      ((∀ issue ∈ (step s op).issued, issue.id ≠ 0) ↔
        (∀ issue ∈ s.issued, issue.id ≠ 0) ∧ SkipsZero s op) := by
  cases op with
  | reAcquire id => simp [step, SkipsZero]
  | release id => simp [step, SkipsZero]
  | close => simp [step, SkipsZero]
  | acquire =>
      cases closed : s.flow.quit with
      | true => simp [step, flowAcquire, closed, SkipsZero]
      | false =>
          have room := few rfl
          rcases flowAcquire_spec closed (by omega) with ⟨j, positive, within, free, first, run⟩
          have nonzero := first_ne_zero_iff positive within free first
          simp only [step, run, List.forall_mem_append, List.forall_mem_singleton, SkipsZero, closed,
            true_imp_iff, nonzero, free, not_false_eq_true, and_true, and_self]

/-- In every run with fewer than 65535 identifiers in use at each acquire, `flowAcquire` returns
identifiers that are not in use, and none of them is zero exactly when every acquire meets the
condition. -/
theorem issued_iff (SendQuota : UInt16) {ops : List Op}
    (few : Along step Few ⟨new SendQuota, []⟩ ops) :
    (∀ issue ∈ (ops.foldl step ⟨new SendQuota, []⟩).issued, issue.id ∉ issue.before) ∧
      ((∀ issue ∈ (ops.foldl step ⟨new SendQuota, []⟩).issued, issue.id ≠ 0) ↔
        Along step SkipsZero ⟨new SendQuota, []⟩ ops) := by
  have fresh := few.invariant (fun s => ∀ issue ∈ s.issued, issue.id ∉ issue.before)
    (fun _ _ before room => (step_issued room).1.mpr before) (by simp)
  have nonzero := few.run_iff (fun _ => True) (fun s => ∀ issue ∈ s.issued, issue.id ≠ 0)
    (fun _ _ _ _ => trivial) (fun _ _ _ room => (step_issued room).2) trivial
  exact ⟨fresh, by simpa using nonzero⟩

/-- On a new connection the first identifiers are 1, 2 and so on, as long as nothing is in use. -/
theorem issued_first_three :
    let ops : List Op := [.acquire, .acquire, .release 1, .acquire]
    ((ops.foldl step ⟨new 5, []⟩).issued.map Issue.id = [1, 2, 3]) ∧
      ((∀ issue ∈ (ops.foldl step ⟨new 5, []⟩).issued, issue.id ∉ issue.before) ∧
        ((∀ issue ∈ (ops.foldl step ⟨new 5, []⟩).issued, issue.id ≠ 0) ↔
          Along step SkipsZero ⟨new 5, []⟩ ops)) := by
  intro ops
  have few : Along step Few ⟨new 5, []⟩ ops :=
    ⟨fun _ => by decide, fun _ => by decide, fun _ => by decide, fun _ => by decide, trivial⟩
  exact ⟨rfl, issued_iff 5 few⟩

/-- Acquire one identifier after the other and release each at once. -/
def cycles : ℕ → List Op
  | 0 => []
  | n + 1 => cycles n ++ [.acquire, .release (UInt16.ofNat (n + 1))]

theorem candidate_counter {n : ℕ} (small : n < 65536) :
    candidate (UInt64.ofNat n) 1 = UInt16.ofNat (n + 1) := by
  rw [candidate, UInt64.toNat_ofNat', Nat.mod_eq_of_lt (by omega)]

/-- One acquire with nothing in use. -/
theorem step_acquire_empty {n : ℕ} (small : n < 65536) (quota : Int) (issued : List Issue) :
    step ⟨⟨quota, UInt64.ofNat n, ∅, false⟩, issued⟩ .acquire =
      ⟨⟨addInt32 quota (-1), UInt64.ofNat (n + 1), {UInt16.ofNat (n + 1)}, false⟩,
        issued ++ [⟨UInt16.ofNat (n + 1), ∅⟩]⟩ := by
  have found := @probe_of_free 65536 (UInt64.ofNat n) ∅ 1 le_rfl (by omega) (by simp) (by omega)
  rw [candidate_counter small] at found
  simp only [step, flowAcquire, found, Bool.false_eq_true, if_false]
  rw [UInt64.ofNat_add]
  rfl

/-- The cycles take the counter up, with nothing left in use. -/
theorem run_cycles {n : ℕ} (small : n ≤ 65536) (SendQuota : UInt16) :
    Along step Few ⟨new SendQuota, []⟩ (cycles n) ∧
      ∃ quota issued, (cycles n).foldl step ⟨new SendQuota, []⟩ =
        ⟨⟨quota, UInt64.ofNat n, ∅, false⟩, issued⟩ := by
  induction n with
  | zero => exact ⟨trivial, _, _, rfl⟩
  | succ n ih =>
      rcases ih (by omega) with ⟨few, quota, issued, reached⟩
      have acquired := step_acquire_empty (show n < 65536 by omega) quota issued
      refine ⟨?_, ?_⟩
      · rw [cycles, along_append, reached]
        exact ⟨few, fun _ => by simp, fun impossible => by simp at impossible, trivial⟩
      · rw [cycles, List.foldl_append, reached, List.foldl_cons, acquired]
        have erased : ({UInt16.ofNat (n + 1)} : Finset IDType).erase (UInt16.ofNat (n + 1)) = ∅ :=
          Finset.erase_singleton _
        simp only [List.foldl_cons, List.foldl_nil, step, flowRelease, erased]
        exact ⟨_, _, rfl⟩

/-- After 65535 cycles the counter is about to pass zero. -/
theorem acquire_after_cycles {n : ℕ} (last : n = 65535) (SendQuota : UInt16) :
    Along step Few ⟨new SendQuota, []⟩ (cycles n ++ [.acquire]) ∧
      ∃ issue ∈ ((cycles n ++ [Op.acquire]).foldl step ⟨new SendQuota, []⟩).issued,
        issue.id = 0 ∧ issue.before = ∅ := by
  rcases run_cycles (show n ≤ 65536 by omega) SendQuota with ⟨few, quota, issued, reached⟩
  rw [along_append, List.foldl_append, reached, List.foldl_cons, List.foldl_nil,
    step_acquire_empty (by omega)]
  refine ⟨⟨few, fun _ => by simp, trivial⟩, ⟨UInt16.ofNat (n + 1), ∅⟩, by simp, ?_, rfl⟩
  rw [last]
  rfl

/-- On a new connection with 65535 packets sent and acknowledged, and nothing in use, the next
identifier is zero. -/
theorem acquire_returns_zero :
    Along step Few ⟨new 65535, []⟩ (cycles 65535 ++ [.acquire]) ∧
      ∃ issue ∈ ((cycles 65535 ++ [Op.acquire]).foldl step ⟨new 65535, []⟩).issued,
        issue.id = 0 ∧ issue.before = ∅ :=
  acquire_after_cycles rfl 65535

end Flow

end VolantMQ.Connection
