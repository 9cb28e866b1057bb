import Mathlib.Data.List.Pairwise
import Mathlib.Data.List.Nodup
import Mathlib.Tactic.Common

/-!
# A two-phase handshake

A sender offers numbered items, one at a time, to a receiver over a pair of FIFO channels. It
repeats an offer until the receiver has taken or refused the item, then commits to it, and repeats
the commit until the receiver is done with it. The receiver stores an item that it takes, delivers
what it has stored when the sender commits, and answers every request. The channels may be reset
at any time; then whatever is in them is gone, and what the receiver has stored with it.

Requests and replies are given keys that grow along the handshake. Since the channels are FIFO, the
keys of all that is under way are in order, which is what both results rest on: no item is
delivered twice, and an item that was accepted and completed has been delivered unless the
receiver lost what it had stored.
-/

namespace Lib.Handshake

/-- What the sender sends. -/
inductive Request where
  | offer (n : ℕ)
  | commit (n : ℕ)

/-- What the receiver answers. -/
inductive Reply where
  | taken (n : ℕ) (success : Bool)
  | done (n : ℕ)

/-- Offers have even keys, commits odd ones. -/
def Request.key : Request → ℕ
  | offer n => 2 * n
  | commit n => 2 * n + 1

/-- A reply has the key of its request. -/
def Reply.key : Reply → ℕ
  | taken n _ => 2 * n
  | done n => 2 * n + 1

/-- Where the sender is with its current item. -/
inductive Phase where
  | idle
  | offering (n : ℕ)
  | committing (n : ℕ)
  deriving DecidableEq

/-- The keys of all that belongs to the current item or earlier ones are below this, when `next`
items have been offered. -/
def Phase.limit (next : ℕ) : Phase → ℕ
  | idle => 2 * next
  | offering n => 2 * n + 1
  | committing n => 2 * n + 2

/-- Commits under way belong to the current item, or to items before all that are offered. -/
def Phase.Fits (next : ℕ) (keys : List ℕ) : Phase → Prop
  | idle => ∀ a b, 2 * a ∈ keys → 2 * b + 1 ∈ keys → b < a
  | offering n => n < next ∧ ∀ a b, 2 * a ∈ keys → 2 * b + 1 ∈ keys → b < a
  | committing n => n < next ∧ ∀ b, 2 * b + 1 ∈ keys → b = n

theorem Phase.Fits.mono {phase : Phase} {count : ℕ} {before after : List ℕ}
    (fits : phase.Fits count before) (subset : after ⊆ before) : phase.Fits count after := by
  cases phase with
  | idle => exact fun a b even odd => fits a b (subset even) (subset odd)
  | offering n => exact ⟨fits.1, fun a b even odd => fits.2 a b (subset even) (subset odd)⟩
  | committing n => exact ⟨fits.1, fun b odd => fits.2 b (subset odd)⟩

theorem Phase.Fits.lt_next {phase : Phase} {next n : ℕ} {keys : List ℕ}
    (fits : phase.Fits next keys) (small : 2 * n < phase.limit next) : n < next := by
  cases phase with
  | idle =>
      simp only [Phase.limit] at small
      omega
  | offering m =>
      have known := fits.1
      simp only [Phase.limit] at small
      omega
  | committing m =>
      have known := fits.1
      simp only [Phase.limit] at small
      omega

/-- Both sides and the channels between them, with records of what has happened. -/
structure Lane where
  next : ℕ
  phase : Phase
  requests : List Request
  replies : List Reply
  stored : Option ℕ
  accepted : List ℕ
  delivered : List ℕ
  completed : List ℕ

namespace Lane

/-- Nothing has been offered yet. -/
def fresh : Lane := ⟨0, .idle, [], [], none, [], [], []⟩

/-- The channels are reset and the receiver forgets. -/
def reset (l : Lane) : Lane := { l with requests := [], replies := [], stored := none }

/-- The steps of a handshake in which nothing is lost. A reply may be ignored, and a request
may be dropped by a receiver that is about to reset. -/
inductive Step : Lane → Lane → Prop where
  | offer {l : Lane} (phase : l.phase = .idle) :
      Step l { l with
        next := l.next + 1
        phase := .offering l.next
        requests := l.requests ++ [.offer l.next] }
  | offerAgain {l : Lane} {n : ℕ} (phase : l.phase = .offering n) :
      Step l { l with requests := l.requests ++ [.offer n] }
  | commitAgain {l : Lane} {n : ℕ} (phase : l.phase = .committing n) :
      Step l { l with requests := l.requests ++ [.commit n] }
  | proceed {l : Lane} {n k : ℕ} {rest : List Reply} (phase : l.phase = .offering n)
      (front : l.replies = .taken k true :: rest) :
      Step l { l with
        phase := .committing n
        requests := l.requests ++ [.commit n]
        replies := rest }
  | giveUp {l : Lane} {n k : ℕ} {rest : List Reply} (phase : l.phase = .offering n)
      (front : l.replies = .taken k false :: rest) :
      Step l { l with phase := .idle, replies := rest }
  | finish {l : Lane} {n k : ℕ} {rest : List Reply} (phase : l.phase = .committing n)
      (front : l.replies = .done k :: rest) :
      Step l { l with phase := .idle, replies := rest, completed := l.completed ++ [n] }
  | ignore {l : Lane} {reply : Reply} {rest : List Reply} (front : l.replies = reply :: rest) :
      Step l { l with replies := rest }
  | store {l : Lane} {n : ℕ} {rest : List Request} (front : l.requests = .offer n :: rest) :
      Step l { l with
        requests := rest
        replies := l.replies ++ [.taken n true]
        stored := some n
        accepted := l.accepted ++ [n] }
  | refuse {l : Lane} {n : ℕ} {rest : List Request} (front : l.requests = .offer n :: rest) :
      Step l { l with requests := rest, replies := l.replies ++ [.taken n false] }
  | drop {l : Lane} {request : Request} {rest : List Request}
      (front : l.requests = request :: rest) : Step l { l with requests := rest }
  | deliver {l : Lane} {n k : ℕ} {rest : List Request} (front : l.requests = .commit n :: rest)
      (holds : l.stored = some k) :
      Step l { l with
        requests := rest
        replies := l.replies ++ [.done n]
        stored := none
        delivered := l.delivered ++ [k] }
  | answer {l : Lane} {n : ℕ} {rest : List Request} (front : l.requests = .commit n :: rest)
      (empty : l.stored = none) :
      Step l { l with requests := rest, replies := l.replies ++ [.done n] }
  | reset {l : Lane} (safe : ∀ n, l.phase = .committing n → l.stored = none) : Step l l.reset

/-- The steps at which something is lost: the receiver accepts an item without storing it, or
forgets what it has stored. -/
inductive Loss : Lane → Lane → Prop where
  | mislead {l : Lane} {n : ℕ} {rest : List Request} (front : l.requests = .offer n :: rest) :
      Loss l { l with
        requests := rest
        replies := l.replies ++ [.taken n true]
        accepted := l.accepted ++ [n] }
  | discard {l : Lane} {n : ℕ} {rest : List Request} (front : l.requests = .commit n :: rest) :
      Loss l { l with requests := rest, replies := l.replies ++ [.done n], stored := none }
  | reset {l : Lane} : Loss l l.reset

/-- The keys of the requests under way. -/
def requestKeys (l : Lane) : List ℕ := l.requests.map Request.key

/-- The keys of all that is under way, in the order in which the sender will see the replies. -/
def keys (l : Lane) : List ℕ := l.replies.map Reply.key ++ l.requestKeys

/-- The invariant of every handshake. -/
structure Ordered (l : Lane) : Prop where
  sorted : l.keys.Pairwise (· ≤ ·)
  below : ∀ key ∈ l.keys, key < l.phase.limit l.next
  fits : l.phase.Fits l.next l.keys
  stored : ∀ n, l.stored = some n →
    2 * n < l.phase.limit l.next ∧ ∀ key ∈ l.requestKeys, 2 * n ≤ key
  past : ∀ n, n ∈ l.delivered ∨ n ∈ l.completed →
    n < l.next ∧ 2 * n ∉ l.requestKeys ∧ l.phase ≠ .offering n
  gone : ∀ n ∈ l.delivered, l.stored ≠ some n
  once : l.delivered.Nodup

theorem ordered_fresh : fresh.Ordered := by
  refine ⟨by simp [fresh, keys, requestKeys], by simp [fresh, keys, requestKeys], ?_,
    by simp [fresh], by simp [fresh], by simp [fresh], by simp [fresh]⟩
  simp [Phase.Fits, fresh, keys, requestKeys]

section Ordered

variable {l next : Lane}

/-- Nothing under way but what was under way before, and nothing else stored. -/
theorem Ordered.shrink (ordered : l.Ordered) (sameNext : next.next = l.next)
    (samePhase : next.phase = l.phase) (sameDelivered : next.delivered = l.delivered)
    (sameCompleted : next.completed = l.completed) (keys : next.keys.Sublist l.keys)
    (requests : next.requestKeys.Sublist l.requestKeys)
    (stored : next.stored = l.stored ∨ next.stored = none) : next.Ordered := by
  have held : ∀ n, next.stored = some n → l.stored = some n := by
    intro n holds
    rcases stored with same | none
    · rw [← same, holds]
    · simp [none] at holds
  refine ⟨ordered.sorted.sublist keys, ?_, ?_, ?_, ?_, ?_, ?_⟩
  · intro key member
    rw [samePhase, sameNext]
    exact ordered.below key (keys.subset member)
  · rw [samePhase, sameNext]
    exact ordered.fits.mono keys.subset
  · intro n holds
    rw [samePhase, sameNext]
    exact ⟨(ordered.stored n (held n holds)).1, fun key member =>
      (ordered.stored n (held n holds)).2 key (requests.subset member)⟩
  · intro n before
    rw [sameDelivered, sameCompleted] at before
    rcases ordered.past n before with ⟨small, notOffered, notCurrent⟩
    exact ⟨sameNext ▸ small, fun member => notOffered (requests.subset member),
      samePhase ▸ notCurrent⟩
  · intro n member holds
    exact ordered.gone n (sameDelivered ▸ member) (held n holds)
  · exact sameDelivered ▸ ordered.once

theorem keys_of_reply {reply : Reply} {rest : List Reply} (front : l.replies = reply :: rest) :
    l.keys = reply.key :: ({ l with replies := rest } : Lane).keys := by
  simp [keys, requestKeys, front]

theorem requestKeys_of_request {request : Request} {rest : List Request}
    (front : l.requests = request :: rest) :
    l.requestKeys = request.key :: rest.map Request.key := by
  simp [requestKeys, front]

/-- The keys behind a request are not smaller than its own. -/
theorem Ordered.behind (ordered : l.Ordered) {request : Request} {rest : List Request}
    (front : l.requests = request :: rest) :
    ∀ key ∈ rest.map Request.key, request.key ≤ key := by
  have sorted := (List.pairwise_append.mp ordered.sorted).2.1
  rw [requestKeys_of_request front] at sorted
  exact (List.pairwise_cons.mp sorted).1

theorem mem_keys_of_front {request : Request} {rest : List Request}
    (front : l.requests = request :: rest) : request.key ∈ l.keys := by
  simp [keys, requestKeys, front]

/-- Sending a request whose key is not below any other. -/
theorem Ordered.send (ordered : l.Ordered) {count : ℕ} {phase : Phase} {request : Request}
    (later : l.next ≤ count) (room : l.phase.limit l.next ≤ request.key + 1)
    (limit : phase.limit count = request.key + 1)
    (fits : phase.Fits count (l.keys ++ [request.key]))
    (new : ∀ n, n ∈ l.delivered ∨ n ∈ l.completed → 2 * n ≠ request.key ∧ phase ≠ .offering n) :
    ({ l with
      next := count
      phase := phase
      requests := l.requests ++ [request] } : Lane).Ordered := by
  have top : ∀ key ∈ l.keys, key ≤ request.key := by
    intro key member
    have := ordered.below key member
    omega
  have keys : ({ l with
      next := count
      phase := phase
      requests := l.requests ++ [request] } : Lane).keys = l.keys ++ [request.key] := by
    simp [Lane.keys, requestKeys]
  refine ⟨?_, ?_, keys ▸ fits, ?_, ?_, ordered.gone, ordered.once⟩
  · rw [keys]
    exact List.pairwise_append.mpr ⟨ordered.sorted, List.pairwise_singleton _ _, by simpa using top⟩
  · rw [keys, limit]
    intro key member
    rcases List.mem_append.mp member with before | new
    · exact Nat.lt_succ_of_le (top key before)
    · rw [List.mem_singleton.mp new]
      exact Nat.lt_succ_self _
  · intro n holds
    rcases ordered.stored n holds with ⟨small, behind⟩
    refine ⟨by rw [limit]; omega, ?_⟩
    intro key member
    simp only [requestKeys, List.map_append, List.mem_append, List.map_cons, List.map_nil,
      List.mem_singleton] at member
    rcases member with before | rfl
    · exact behind key before
    · omega
  · intro n before
    rcases ordered.past n before with ⟨small, notOffered, _⟩
    refine ⟨Nat.lt_of_lt_of_le small later, ?_, (new n before).2⟩
    simp only [requestKeys, List.map_append, List.mem_append, List.map_cons, List.map_nil,
      List.mem_singleton, not_or]
    exact ⟨notOffered, (new n before).1⟩

/-- An offer comes after all commits under way. -/
theorem fits_offer {n count : ℕ} {keys : List ℕ} (known : n < count)
    (below : ∀ key ∈ keys, key < 2 * n + 1)
    (apart : ∀ a b, 2 * a ∈ keys → 2 * b + 1 ∈ keys → b < a) :
    (Phase.offering n).Fits count (keys ++ [2 * n]) := by
  refine ⟨known, fun a b even odd => ?_⟩
  simp only [List.mem_append, List.mem_singleton] at even odd
  rcases odd with oldOdd | impossible
  · have small := below _ oldOdd
    rcases even with oldEven | new
    · exact apart a b oldEven oldOdd
    · omega
  · omega

/-- A commit for the current item is one more of its kind. -/
theorem fits_commit {n count : ℕ} {keys : List ℕ} (known : n < count)
    (only : ∀ b, 2 * b + 1 ∈ keys → b = n) :
    (Phase.committing n).Fits count (keys ++ [2 * n + 1]) := by
  refine ⟨known, fun b odd => ?_⟩
  simp only [List.mem_append, List.mem_singleton] at odd
  rcases odd with old | new
  · exact only b old
  · omega

theorem ordered_offer (ordered : l.Ordered) (phase : l.phase = .idle) :
    ({ l with
      next := l.next + 1
      phase := .offering l.next
      requests := l.requests ++ [.offer l.next] } : Lane).Ordered := by
  have below := ordered.below
  have fits := ordered.fits
  simp only [phase] at below fits
  refine ordered.send (Nat.le_succ _) ?_ rfl ?_ ?_
  · rw [phase]
    exact Nat.le_succ _
  · exact fits_offer (Nat.lt_succ_self _) (fun key member => Nat.lt_succ_of_lt (below key member)) fits
  · intro n before
    have small := (ordered.past n before).1
    simp only [Request.key, ne_eq, Phase.offering.injEq]
    omega

theorem ordered_offerAgain (ordered : l.Ordered) {n : ℕ} (phase : l.phase = .offering n) :
    ({ l with requests := l.requests ++ [.offer n] } : Lane).Ordered := by
  have below := ordered.below
  have fits := ordered.fits
  rw [phase] at below fits
  refine ordered.send (Nat.le_refl _) ?_ ?_ ?_ ?_
  · rw [phase]
    exact Nat.le_refl _
  · rw [phase]
    rfl
  · rw [phase]
    exact fits_offer fits.1 below fits.2
  · intro k before
    have notCurrent := (ordered.past k before).2.2
    refine ⟨fun same => notCurrent ?_, notCurrent⟩
    simp only [Request.key] at same
    rw [phase, show n = k by omega]

theorem ordered_commitAgain (ordered : l.Ordered) {n : ℕ} (phase : l.phase = .committing n) :
    ({ l with requests := l.requests ++ [.commit n] } : Lane).Ordered := by
  have fits := ordered.fits
  rw [phase] at fits
  refine ordered.send (Nat.le_refl _) ?_ ?_ ?_ ?_
  · rw [phase]
    exact Nat.le_refl _
  · rw [phase]
    rfl
  · rw [phase]
    exact fits_commit fits.1 fits.2
  · intro k before
    refine ⟨fun same => ?_, (ordered.past k before).2.2⟩
    simp only [Request.key] at same
    omega

theorem ordered_ignore (ordered : l.Ordered) {reply : Reply} {rest : List Reply}
    (front : l.replies = reply :: rest) : ({ l with replies := rest } : Lane).Ordered := by
  refine ordered.shrink rfl rfl rfl rfl ?_ (List.Sublist.refl _) (.inl rfl)
  rw [keys_of_reply front]
  exact List.sublist_cons_self _ _

/-- The reply that takes an offer comes after all that belongs to earlier commits. -/
theorem ordered_proceed (ordered : l.Ordered) {n k : ℕ} {rest : List Reply}
    (phase : l.phase = .offering n) (front : l.replies = .taken k true :: rest) :
    ({ l with
      phase := .committing n
      requests := l.requests ++ [.commit n]
      replies := rest } : Lane).Ordered := by
  have fits := ordered.fits
  have sorted := ordered.sorted
  rw [keys_of_reply front] at sorted fits
  rw [phase] at fits
  rw [List.pairwise_cons] at sorted
  refine (ordered_ignore ordered front).send (Nat.le_refl _) ?_ rfl ?_ ?_
  · simp only [phase, Phase.limit, Request.key]
    omega
  · refine fits_commit fits.1 fun b old => ?_
    -- an earlier commit under way would be both before and behind the reply
    have before := fits.2 k b List.mem_cons_self (List.mem_cons_of_mem _ old)
    have behind := sorted.1 _ old
    simp only [Reply.key] at behind
    omega
  · intro m before
    simp only [Request.key]
    exact ⟨by omega, by simp⟩

theorem ordered_giveUp (ordered : l.Ordered) {n k : ℕ} {rest : List Reply}
    (phase : l.phase = .offering n) (front : l.replies = .taken k false :: rest) :
    ({ l with phase := .idle, replies := rest } : Lane).Ordered := by
  have ignored := ordered_ignore ordered front
  have below := ignored.below
  have fits := ignored.fits
  have stored := ignored.stored
  simp only [phase, Phase.Fits, Phase.limit] at below fits stored
  refine ⟨ignored.sorted, ?_, fits.2, ?_, ?_, ignored.gone, ignored.once⟩
  · intro key member
    have small := below key member
    simp only [Phase.limit]
    omega
  · intro m holds
    have small := (stored m holds).1
    simp only [Phase.limit]
    exact ⟨by omega, (stored m holds).2⟩
  · intro m before
    exact ⟨(ordered.past m before).1, (ordered.past m before).2.1, by simp⟩

/-- The reply that ends a commit is the last of its kind to matter. -/
theorem ordered_finish (ordered : l.Ordered) {n k : ℕ} {rest : List Reply}
    (phase : l.phase = .committing n) (front : l.replies = .done k :: rest) :
    ({ l with
      phase := .idle
      replies := rest
      completed := l.completed ++ [n] } : Lane).Ordered := by
  have ignored := ordered_ignore ordered front
  have below := ignored.below
  have stored := ignored.stored
  have fits := ordered.fits
  have sorted := ordered.sorted
  rw [keys_of_reply front] at sorted fits
  simp only [phase, Phase.Fits, Phase.limit] at below fits stored
  have own : k = n := fits.2 k List.mem_cons_self
  subst k
  rw [List.pairwise_cons] at sorted
  have behind := sorted.1
  simp only [Reply.key] at behind
  refine ⟨ignored.sorted, ?_, ?_, ?_, ?_, ignored.gone, ignored.once⟩
  · intro key member
    have small := below key member
    simp only [Phase.limit]
    omega
  · intro a b even odd
    have low := behind _ even
    have high := below _ even
    omega
  · intro m holds
    have small := (stored m holds).1
    simp only [Phase.limit]
    exact ⟨by omega, (stored m holds).2⟩
  · intro m before
    simp only [List.mem_append, List.mem_singleton] at before
    have known : (m ∈ l.delivered ∨ m ∈ l.completed) ∨ m = n := by
      rcases before with delivered | completed | new
      · exact .inl (.inl delivered)
      · exact .inl (.inr completed)
      · exact .inr new
    rcases known with past | rfl
    · exact ⟨(ordered.past m past).1, (ordered.past m past).2.1, by simp⟩
    · refine ⟨fits.1, fun offered => ?_, by simp⟩
      have low := behind _ (List.mem_append_right _ offered)
      omega

/-- An answered request keeps the order, whatever is stored afterwards is checked apart. -/
theorem Ordered.answered (ordered : l.Ordered) {request : Request} {rest : List Request}
    {reply : Reply} (front : l.requests = request :: rest) (same : reply.key = request.key)
    (accepted : List ℕ) {stored : Option ℕ} (held : stored = l.stored ∨ stored = none) :
    ({ l with
      requests := rest
      replies := l.replies ++ [reply]
      stored := stored
      accepted := accepted } : Lane).Ordered := by
  refine ordered.shrink rfl rfl rfl rfl ?_ ?_ held
  · simp [keys, requestKeys, front, same]
  · rw [requestKeys_of_request front]
    exact List.sublist_cons_self _ _

theorem ordered_store (ordered : l.Ordered) {n : ℕ} {rest : List Request}
    (front : l.requests = .offer n :: rest) :
    ({ l with
      requests := rest
      replies := l.replies ++ [.taken n true]
      stored := some n
      accepted := l.accepted ++ [n] } : Lane).Ordered := by
  have answered := ordered.answered front (show (Reply.taken n true).key = _ from rfl)
    (l.accepted ++ [n]) (.inr rfl)
  refine ⟨answered.sorted, answered.below, answered.fits, ?_, answered.past, ?_, answered.once⟩
  · intro m holds
    cases holds
    exact ⟨ordered.below _ (mem_keys_of_front front), ordered.behind front⟩
  · intro m delivered holds
    cases holds
    apply (ordered.past n (.inl delivered)).2.1
    rw [requestKeys_of_request front]
    exact List.mem_cons_self

/-- What is delivered was offered before the commit, and is not offered again. -/
theorem ordered_deliver (ordered : l.Ordered) {n k : ℕ} {rest : List Request}
    (front : l.requests = .commit n :: rest) (holds : l.stored = some k) :
    ({ l with
      requests := rest
      replies := l.replies ++ [.done n]
      stored := none
      delivered := l.delivered ++ [k] } : Lane).Ordered := by
  have answered := ordered.answered front (show (Reply.done n).key = _ from rfl) l.accepted
    (.inr rfl)
  have offered := (ordered.stored k holds).2 _ (by
    rw [requestKeys_of_request front]
    exact List.mem_cons_self)
  have behind := ordered.behind front
  have limited := ordered.below _ (mem_keys_of_front front)
  have small := (ordered.stored k holds).1
  simp only [Request.key] at offered behind limited
  refine ⟨answered.sorted, answered.below, answered.fits, by simp, ?_, by simp, ?_⟩
  · intro m before
    simp only [List.mem_append, List.mem_singleton] at before
    have known : (m ∈ l.delivered ∨ m ∈ l.completed) ∨ m = k := by
      rcases before with (delivered | new) | completed
      · exact .inl (.inl delivered)
      · exact .inr new
      · exact .inl (.inr completed)
    rcases known with past | rfl
    · exact answered.past m past
    · refine ⟨ordered.fits.lt_next small, fun again => ?_, fun current => ?_⟩
      · have low := behind _ again
        omega
      · simp only at current
        simp only [current, Phase.limit] at limited
        omega
  · rw [List.nodup_append]
    refine ⟨ordered.once, List.nodup_singleton k, ?_⟩
    intro a delivered b new
    rw [List.mem_singleton] at new
    subst b
    rintro rfl
    exact ordered.gone a delivered holds

theorem ordered_reset (ordered : l.Ordered) : l.reset.Ordered :=
  ordered.shrink rfl rfl rfl rfl (List.nil_sublist _) (List.nil_sublist _) (.inr rfl)

theorem ordered_step (ordered : l.Ordered) (step : Step l next) : next.Ordered := by
  cases step with
  | offer phase => exact ordered_offer ordered phase
  | offerAgain phase => exact ordered_offerAgain ordered phase
  | commitAgain phase => exact ordered_commitAgain ordered phase
  | proceed phase front => exact ordered_proceed ordered phase front
  | giveUp phase front => exact ordered_giveUp ordered phase front
  | finish phase front => exact ordered_finish ordered phase front
  | ignore front => exact ordered_ignore ordered front
  | store front => exact ordered_store ordered front
  | refuse front => exact ordered.answered front rfl l.accepted (.inl rfl)
  | drop front =>
      refine ordered.shrink rfl rfl rfl rfl ?_ ?_ (.inl rfl)
      · simp [keys, requestKeys, front]
      · simp [requestKeys, front]
  | deliver front holds => exact ordered_deliver ordered front holds
  | answer front empty => exact ordered.answered front rfl l.accepted (.inl rfl)
  | reset safe => exact ordered_reset ordered

theorem ordered_loss (ordered : l.Ordered) (loss : Loss l next) : next.Ordered := by
  cases loss with
  | mislead front => exact ordered.answered front rfl _ (.inl rfl)
  | discard front => exact ordered.answered front rfl l.accepted (.inr rfl)
  | reset => exact ordered_reset ordered

end Ordered

/-- The item is delivered, or stored and waiting for its commit. -/
def Safe (l : Lane) (n : ℕ) : Prop := n ∈ l.delivered ∨ l.stored = some n

/-- What the sender may rely on about an item that was accepted. While it is still offering an item
that is not safe, no reply that takes it is under way. -/
def Reliable (l : Lane) : Prop :=
  match l.phase with
  | .idle => True
  | .offering n => n ∈ l.accepted → l.Safe n ∨
      ((∀ m, 2 * m ∈ l.requestKeys → m = n) ∧ ∀ m, .taken m true ∉ l.replies)
  | .committing n => n ∈ l.accepted → l.Safe n

/-- The invariant of a handshake in which nothing is lost. -/
structure Sure (l : Lane) : Prop where
  reliable : l.Reliable
  later : ∀ n k, .done n ∈ l.replies → l.stored = some k → n < k
  known : ∀ n ∈ l.accepted, n < l.next
  kept : ∀ n ∈ l.completed, n ∈ l.accepted → n ∈ l.delivered

theorem sure_fresh : fresh.Sure := by
  refine ⟨?_, by simp [fresh], by simp [fresh], by simp [fresh]⟩
  simp [Reliable, fresh]

section Sure

variable {l next : Lane}

/-- Fewer requests, no new reply that takes an offer, and nothing less safe. -/
theorem Reliable.weaken (reliable : l.Reliable) (samePhase : next.phase = l.phase)
    (sameAccepted : next.accepted = l.accepted)
    (requests : ∀ n, l.phase = .offering n → ∀ m, 2 * m ∈ next.requestKeys →
      2 * m ∈ l.requestKeys ∨ m = n)
    (replies : ∀ m, .taken m true ∈ next.replies → .taken m true ∈ l.replies)
    (safe : ∀ n, l.phase = .offering n ∨ l.phase = .committing n → l.Safe n → next.Safe n) :
    next.Reliable := by
  unfold Reliable at reliable ⊢
  rw [samePhase, sameAccepted]
  cases phase : l.phase with
  | idle => trivial
  | offering n =>
      simp only [phase] at reliable ⊢
      intro accepted
      rcases reliable accepted with isSafe | ⟨only, none⟩
      · exact .inl (safe n (.inl phase) isSafe)
      · refine .inr ⟨fun m offered => ?_, fun m taken => none m (replies m taken)⟩
        rcases requests n phase m offered with before | new
        · exact only m before
        · exact new
  | committing n =>
      simp only [phase] at reliable ⊢
      exact fun accepted => safe n (.inr phase) (reliable accepted)

/-- The receiver takes a request and answers it, if at all, with a reply that takes no offer. -/
theorem Reliable.serve (reliable : l.Reliable) {request : Request} {rest : List Request}
    (front : l.requests = request :: rest) (left : next.requests = rest)
    (samePhase : next.phase = l.phase) (sameAccepted : next.accepted = l.accepted)
    (replies : ∀ m, .taken m true ∈ next.replies → .taken m true ∈ l.replies)
    (safe : ∀ n, l.Safe n → next.Safe n) : next.Reliable := by
  refine reliable.weaken samePhase sameAccepted (fun _ _ m offered => .inl ?_) replies
    fun n _ => safe n
  rw [requestKeys_of_request front]
  rw [requestKeys, left] at offered
  exact List.mem_cons_of_mem _ offered

/-- Taking an offer leaves nothing behind that was safe and is still wanted. -/
theorem reliable_store (ordered : l.Ordered) (reliable : l.Reliable) {n : ℕ} {rest : List Request}
    (front : l.requests = .offer n :: rest) :
    ({ l with
      requests := rest
      replies := l.replies ++ [.taken n true]
      stored := some n
      accepted := l.accepted ++ [n] } : Lane).Reliable := by
  have offered : 2 * n ∈ l.requestKeys := by
    rw [requestKeys_of_request front]
    exact List.mem_cons_self
  have limited := ordered.below _ (List.mem_append_right _ offered)
  have replaced : ∀ m, l.stored = some m → m ≤ n := by
    intro m holds
    have behind := (ordered.stored m holds).2 _ offered
    omega
  unfold Reliable at reliable ⊢
  cases phase : l.phase with
  | idle => trivial
  | offering m =>
      simp only [phase, Phase.limit] at reliable limited ⊢
      intro accepted
      left
      by_cases own : m = n
      · exact .inr (congrArg some own.symm)
      · rw [List.mem_append, List.mem_singleton] at accepted
        rcases reliable (accepted.resolve_right own) with (delivered | holds) | ⟨only, _⟩
        · exact .inl delivered
        · have := replaced m holds
          omega
        · exact absurd (only n offered).symm own
  | committing m =>
      simp only [phase, Phase.limit] at reliable limited ⊢
      intro accepted
      by_cases own : m = n
      · exact .inr (congrArg some own.symm)
      · rw [List.mem_append, List.mem_singleton] at accepted
        rcases reliable (accepted.resolve_right own) with delivered | holds
        · exact .inl delivered
        · have := replaced m holds
          omega

theorem sure_store (ordered : l.Ordered) (sure : l.Sure) {n : ℕ} {rest : List Request}
    (front : l.requests = .offer n :: rest) :
    ({ l with
      requests := rest
      replies := l.replies ++ [.taken n true]
      stored := some n
      accepted := l.accepted ++ [n] } : Lane).Sure := by
  have offered : 2 * n ∈ l.requestKeys := by
    rw [requestKeys_of_request front]
    exact List.mem_cons_self
  refine ⟨reliable_store ordered sure.reliable front, ?_, ?_, ?_⟩
  · intro m k done holds
    cases holds
    have before : .done m ∈ l.replies := by simpa using done
    have order := (List.pairwise_append.mp ordered.sorted).2.2 _
      (List.mem_map_of_mem (f := Reply.key) before) _ offered
    simp only [Reply.key] at order
    omega
  · intro m accepted
    rcases List.mem_append.mp accepted with before | new
    · exact sure.known m before
    · rw [List.mem_singleton.mp new]
      exact ordered.fits.lt_next (ordered.below _ (List.mem_append_right _ offered))
  · intro m completed accepted
    rcases List.mem_append.mp accepted with before | new
    · exact sure.kept m completed before
    · rw [List.mem_singleton.mp new] at completed
      exact absurd offered (ordered.past n (.inr completed)).2.1

theorem sure_finish (ordered : l.Ordered) (sure : l.Sure) {n k : ℕ} {rest : List Reply}
    (phase : l.phase = .committing n) (front : l.replies = .done k :: rest) :
    ({ l with
      phase := .idle
      replies := rest
      completed := l.completed ++ [n] } : Lane).Sure := by
  have fits := ordered.fits
  have reliable := sure.reliable
  rw [keys_of_reply front, phase] at fits
  simp only [Reliable, phase] at reliable
  have own : k = n := fits.2 k List.mem_cons_self
  refine ⟨trivial, fun m j done holds => sure.later m j (by simp [front, done]) holds, sure.known,
    fun m completed accepted => ?_⟩
  rcases List.mem_append.mp completed with before | new
  · exact sure.kept m before accepted
  · rw [List.mem_singleton.mp new] at accepted ⊢
    rcases reliable accepted with delivered | holds
    · exact delivered
    · have := sure.later k n (by simp [front]) holds
      omega

theorem sure_step (ordered : l.Ordered) (sure : l.Sure) (step : Step l next) : next.Sure := by
  have reliable := sure.reliable
  cases step with
  | offer phase =>
      refine ⟨fun accepted => ?_, sure.later, ?_, sure.kept⟩
      · exact absurd (sure.known _ accepted) (Nat.lt_irrefl _)
      · exact fun n accepted => Nat.lt_succ_of_lt (sure.known n accepted)
  | @offerAgain n phase =>
      refine ⟨?_, sure.later, sure.known, sure.kept⟩
      refine reliable.weaken rfl rfl ?_ (fun _ taken => taken) (fun _ _ safe => safe)
      intro k current m offered
      simp only [requestKeys, List.map_append, List.mem_append, List.map_cons, List.map_nil,
        List.mem_singleton, Request.key] at offered
      rw [phase, Phase.offering.injEq] at current
      rcases offered with before | new
      · exact .inl before
      · exact .inr (by omega)
  | @commitAgain n phase =>
      refine ⟨?_, sure.later, sure.known, sure.kept⟩
      refine reliable.weaken rfl rfl ?_ (fun _ taken => taken) (fun _ _ safe => safe)
      intro k current
      simp [phase] at current
  | @proceed n k rest phase front =>
      refine ⟨?_, fun m j done holds => sure.later m j (by simp [front, done]) holds, sure.known,
        sure.kept⟩
      simp only [Reliable, phase] at reliable ⊢
      intro accepted
      rcases reliable accepted with safe | ⟨_, none⟩
      · exact safe
      · exact absurd (by simp [front]) (none k)
  | giveUp phase front =>
      exact ⟨trivial, fun m j done holds => sure.later m j (by simp [front, done]) holds, sure.known,
        sure.kept⟩
  | finish phase front => exact sure_finish ordered sure phase front
  | ignore front =>
      refine ⟨?_, fun m j done holds => sure.later m j (by simp [front, done]) holds, sure.known,
        sure.kept⟩
      exact reliable.weaken rfl rfl (fun _ _ _ offered => .inl offered)
        (fun _ taken => by simp [front, taken]) (fun _ _ safe => safe)
  | store front => exact sure_store ordered sure front
  | refuse front =>
      refine ⟨?_, fun m j done holds => sure.later m j (by simpa using done) holds, sure.known,
        sure.kept⟩
      exact reliable.serve front rfl rfl rfl (fun _ taken => by simpa using taken)
        (fun _ safe => safe)
  | drop front =>
      refine ⟨?_, sure.later, sure.known, sure.kept⟩
      exact reliable.serve front rfl rfl rfl (fun _ taken => taken) (fun _ safe => safe)
  | @deliver n k rest front holds =>
      refine ⟨?_, by simp, sure.known, fun m completed accepted =>
        List.mem_append_left _ (sure.kept m completed accepted)⟩
      refine reliable.serve front rfl rfl rfl (fun _ taken => by simpa using taken) ?_
      rintro m (delivered | same)
      · exact .inl (List.mem_append_left _ delivered)
      · rw [holds, Option.some.injEq] at same
        exact .inl (List.mem_append_right _ (List.mem_singleton.mpr same.symm))
  | answer front empty =>
      refine ⟨?_, fun m j _ holds => by simp [empty] at holds, sure.known, sure.kept⟩
      exact reliable.serve front rfl rfl rfl (fun _ taken => by simpa using taken)
        (fun _ safe => safe)
  | reset safe =>
      refine ⟨?_, by simp [reset], sure.known, sure.kept⟩
      unfold Reliable at reliable ⊢
      cases phase : l.phase with
      | idle => simp [reset, phase]
      | offering n => simp [reset, phase, requestKeys]
      | committing n =>
          simp only [phase] at reliable
          simp only [reset, phase]
          intro accepted
          rcases reliable accepted with delivered | holds
          · exact .inl delivered
          · simp [safe n phase] at holds

end Sure

end Lane

end Lib.Handshake
