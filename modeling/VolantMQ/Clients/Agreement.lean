import VolantMQ.Lib.Run
import VolantMQ.Topics.Refinement
import VolantMQ.Clients.Subscriptions

/-!
# Subscribers and the trie

Every subscriber keeps a map of its subscriptions, and the topics provider keeps them in its trie.
`Subscribe`, `UnSubscribe` and `Offline` of the subscriber update both, one after the other. This
file runs any number of subscribers against one provider and shows that the map of each subscriber
and the trie always hold the same subscriptions.
-/

namespace VolantMQ.Clients

open Lib Packet Topics

namespace ConnectionProvider

/-- `Subscribe`. The map keeps the pointer that was passed to the provider, which has set the
granted QoS. -/
def subscribe (s : ConnectionProvider) (topics : Topics.Provider) (topic : GoString)
    (params : SubscriptionParams) (now : Time) : ConnectionProvider × Topics.Provider :=
  let (topics, answer) := topics.subscribe topic s.hash params now
  ({ s with subscriptions :=
      s.subscriptions.insert topic { params with Granted := answer.granted } }, topics)

/-- `UnSubscribe`: the map forgets the topic whatever the provider answers. -/
def unSubscribe (s : ConnectionProvider) (topics : Topics.Provider) (topic : GoString) :
    ConnectionProvider × Topics.Provider :=
  ({ s with subscriptions := s.subscriptions.erase topic },
    (topics.unSubscribe topic (some s.hash)).1)

end ConnectionProvider

/-- A topics provider and its subscribers, by address. -/
structure Subscribers where
  topics : Topics.Provider
  subscriber : Hash → ConnectionProvider
  hash : ∀ s, (subscriber s).hash = s

namespace Subscribers

/-- No subscriber has subscribed to anything. -/
def new (mode : Bool) (version : Hash → ProtocolVersion) : Subscribers where
  topics := .empty mode
  subscriber := fun s => ⟨s, version s, ∅, false⟩
  hash := fun _ => rfl

/-- Replace one subscriber and the provider by what an operation left of them. -/
def put (m : Subscribers) (after : ConnectionProvider × Topics.Provider) : Subscribers where
  topics := after.2
  subscriber := Function.update m.subscriber after.1.hash after.1
  hash := by
    intro s
    by_cases same : s = after.1.hash
    · subst same
      rw [Function.update_self]
    · rw [Function.update_of_ne same]
      exact m.hash s

/-- One call of a subscriber, or one that concerns retained messages only. -/
inductive Call where
  | subscribe (s : Hash) (topic : GoString) (params : SubscriptionParams) (now : Time)
  | unSubscribe (s : Hash) (topic : GoString)
  | offline (s : Hash) (order : MapOrder Subscription) (shutdown : Bool)
  | retain (obj : RetainObject)
  | retained (filter : GoString) (now : Time)

def step (m : Subscribers) : Call → Subscribers
  | .subscribe s topic params now => m.put ((m.subscriber s).subscribe m.topics topic params now)
  | .unSubscribe s topic => m.put ((m.subscriber s).unSubscribe m.topics topic)
  | .offline s order shutdown => m.put ((m.subscriber s).offline m.topics order shutdown)
  | .retain obj => { m with topics := m.topics.retain obj }
  | .retained filter now => { m with topics := (m.topics.retained filter now).1 }

def run (m : Subscribers) (calls : List Call) : Subscribers := calls.foldl step m

/-- A filter is a key of the map of a subscriber if and only if the trie holds an entry for the
subscriber at the filter, with the same parameters; and the trie holds entries at filters only. -/
structure Agree (m : Subscribers) : Prop where
  same : ∀ s filter p, (m.subscriber s).subscriptions.lookup filter = some p ↔
    m.topics.params filter s = some p
  filters : ∀ path data, (path, data) ∈ m.topics.root.nodes → ∀ s entry,
    data.subs.lookup s = some entry → entry.s = s ∧ ∃ filter, split filter = path

/-- No node of the trie refers to a subscriber. -/
def Gone (m : Subscribers) (s : Hash) : Prop :=
  ∀ path data, (path, data) ∈ m.topics.root.nodes → data.subs.lookup s = none ∧
    ∀ other entry, data.subs.lookup other = some entry → entry.s ≠ s

/-- Subscriptions are filed at the levels of filters only. -/
def AtFilters (mT : Topics.Provider) : Prop :=
  ∀ path, mT.subsAt path ≠ ∅ → ∃ filter, split filter = path

section AtFilters

variable {mT : Topics.Provider}

theorem atFilters_empty (mode : Bool) : AtFilters (.empty mode) := by
  intro path held
  exact absurd (by simp [Topics.Provider.subsAt, Topics.Provider.empty, Topics.Provider.blank,
    Trie.get_leaf, NodeData.new]) held

/-- An operation that changes the subscriptions at one filter only keeps the others. -/
theorem AtFilters.update (filed : AtFilters mT) {other : Topics.Provider} {filter : GoString}
    {subs : SubscribedEntries}
    (update : ∀ path, other.subsAt path = if path = split filter then subs else mT.subsAt path) :
    AtFilters other := by
  intro path held
  rw [update] at held
  split at held
  · rename_i here
    exact ⟨filter, here.symm⟩
  · exact filed path held

theorem AtFilters.congr (filed : AtFilters mT) {other : Topics.Provider}
    (same : ∀ path, other.subsAt path = mT.subsAt path) : AtFilters other := by
  intro path held
  rw [same] at held
  exact filed path held

theorem AtFilters.subscribe (filed : AtFilters mT) (filter : GoString) (s : Hash)
    (p : SubscriptionParams) (now : Time) : AtFilters (mT.subscribe filter s p now).1 := by
  have inserted : AtFilters (mT.subscriptionInsert filter s
      { p with Granted := p.Ops.qos }).1 :=
    filed.update (Topics.Provider.subsAt_insertAt mT (split filter) _
      (Topics.Provider.putSubscriber_ok s _))
  simp only [Topics.Provider.subscribe]
  split
  · exact inserted.congr (Topics.Provider.subsAt_retainSearch _ filter now)
  · exact inserted

theorem AtFilters.unSubscribe (filed : AtFilters mT) (filter : GoString) (s : Option Hash) :
    AtFilters (mT.unSubscribe filter s).1 := by
  simp only [Topics.Provider.unSubscribe, Topics.Provider.subscriptionRemove]
  cases found : Node.leafSearchNode mT.root (split filter) with
  | none => exact filed
  | some leaf =>
      have present : (mT.root.find? (split filter)).isSome := by
        rw [Node.leafSearchNode] at found
        simp [found]
      exact filed.update (Topics.Provider.subsAt_cleanUpAt mT _
        (Topics.Provider.dropSubscriber_ok s) present)

end AtFilters

/-- The trie and the map of one subscriber hold the subscriptions of a table. -/
structure Follows (after : ConnectionProvider × Topics.Provider) (table : Table) : Prop where
  trie : after.2.Represents table
  map : ∀ filter, after.1.subscriptions.lookup filter = table.lookup (filter, after.1.hash)
  filed : AtFilters after.2

/-- The trie and all maps hold the subscriptions of one table. -/
structure Inv (m : Subscribers) (table : Table) : Prop where
  trie : m.topics.Represents table
  maps : ∀ s filter, (m.subscriber s).subscriptions.lookup filter = table.lookup (filter, s)
  filed : AtFilters m.topics

/-- Two tables that differ in the subscriptions of one subscriber only. -/
def SameBut (s : Hash) (before after : Table) : Prop :=
  ∀ other filter, other ≠ s → after.lookup (filter, other) = before.lookup (filter, other)

section Follows

variable {s : ConnectionProvider} {topics : Topics.Provider} {table : Table}

theorem Follows.subscribe (follows : Follows (s, topics) table) (topic : GoString)
    (params : SubscriptionParams) (now : Time) :
    Follows (s.subscribe topics topic params now)
      (table.insert (topic, s.hash) { params with Granted := params.Ops.qos }) := by
  have spec := Topics.Provider.represents_subscribe follows.trie topic s.hash params now
  have granted : (topics.subscribe topic s.hash params now).2.granted = params.Ops.qos := by
    simp only [Topics.Provider.subscribe]
    split <;> rfl
  refine ⟨spec.1, ?_, follows.filed.subscribe topic s.hash params now⟩
  intro filter
  simp only [ConnectionProvider.subscribe, granted]
  by_cases same : filter = topic
  · subst same
    rw [AList.lookup_insert, AList.lookup_insert]
  · rw [AList.lookup_insert_ne same, AList.lookup_insert_ne (by simp [same])]
    exact follows.map filter

theorem Follows.unSubscribe (follows : Follows (s, topics) table) (topic : GoString) :
    Follows (s.unSubscribe topics topic) (table.erase (topic, s.hash)) := by
  refine ⟨(Topics.Provider.represents_unSubscribe follows.trie topic s.hash).1, ?_,
    follows.filed.unSubscribe topic (some s.hash)⟩
  intro filter
  simp only [ConnectionProvider.unSubscribe]
  by_cases same : filter = topic
  · subst same
    rw [AList.lookup_erase, AList.lookup_erase]
  · rw [AList.lookup_erase_ne same, AList.lookup_erase_ne (by simp [same])]
    exact follows.map filter

/-- The loop of `Offline` unsubscribes from one filter after the other. -/
theorem Follows.drops (follows : Follows (s, topics) table) (entries : List Subscription) :
    ∃ next, Follows (entries.foldl ConnectionProvider.drop (s, topics)) next ∧
      SameBut s.hash table next ∧
      (entries.foldl ConnectionProvider.drop (s, topics)).1.hash = s.hash := by
  induction entries generalizing s topics table with
  | nil => exact ⟨table, follows, fun _ _ _ => rfl, rfl⟩
  | cons entry entries ih =>
      rcases ih (follows.unSubscribe entry.1) with ⟨next, done, kept, hash⟩
      refine ⟨next, done, ?_, hash⟩
      intro other filter distinct
      rw [kept other filter distinct, AList.lookup_erase_ne (by simp [distinct])]

theorem Follows.offline (follows : Follows (s, topics) table) (order : MapOrder Subscription)
    (shutdown : Bool) :
    ∃ next, Follows (s.offline topics order shutdown) next ∧ SameBut s.hash table next ∧
      (s.offline topics order shutdown).1.hash = s.hash := by
  cases shutdown with
  | false => exact ⟨table, ⟨follows.trie, follows.map, follows.filed⟩, fun _ _ _ => rfl, rfl⟩
  | true =>
      rcases follows.drops (order.range s.subscriptions.entries) with ⟨next, done, kept, hash⟩
      exact ⟨next, ⟨done.trie, done.map, done.filed⟩, kept, hash⟩

end Follows

section Inv

variable {m : Subscribers} {table : Table}

theorem inv_new (mode : Bool) (version : Hash → ProtocolVersion) : (new mode version).Inv ∅ where
  trie := Topics.Provider.represents_empty mode
  maps := fun _ _ => rfl
  filed := atFilters_empty mode

theorem Inv.follows (inv : m.Inv table) (s : Hash) : Follows (m.subscriber s, m.topics) table := by
  refine ⟨inv.trie, ?_, inv.filed⟩
  intro filter
  rw [m.hash s]
  exact inv.maps s filter

/-- What one subscriber does with the provider leaves the others in agreement. -/
theorem Inv.put (inv : m.Inv table) {s : Hash} {after : ConnectionProvider × Topics.Provider}
    {next : Table} (follows : Follows after next) (hash : after.1.hash = s)
    (kept : SameBut s table next) : (m.put after).Inv next := by
  refine ⟨follows.trie, ?_, follows.filed⟩
  intro other filter
  simp only [Subscribers.put, hash]
  by_cases same : other = s
  · subst same
    rw [Function.update_self, follows.map, hash]
  · rw [Function.update_of_ne same, kept other filter same]
    exact inv.maps other filter

theorem Inv.step (inv : m.Inv table) (call : Call) : ∃ next, (m.step call).Inv next := by
  cases call with
  | subscribe s topic params now =>
      refine ⟨_, inv.put ((inv.follows s).subscribe topic params now) (m.hash s) ?_⟩
      intro other filter distinct
      rw [m.hash s, AList.lookup_insert_ne (by simp [distinct])]
  | unSubscribe s topic =>
      refine ⟨_, inv.put ((inv.follows s).unSubscribe topic) (m.hash s) ?_⟩
      intro other filter distinct
      rw [m.hash s, AList.lookup_erase_ne (by simp [distinct])]
  | offline s order shutdown =>
      rcases (inv.follows s).offline order shutdown with ⟨next, done, kept, hash⟩
      rw [m.hash s] at kept hash
      exact ⟨next, inv.put done hash kept⟩
  | retain obj =>
      have same := Topics.Provider.subsAt_retain m.topics obj
      exact ⟨table, inv.trie.congr same, inv.maps, inv.filed.congr same⟩
  | retained filter now =>
      have same := Topics.Provider.subsAt_retainSearch m.topics filter now
      exact ⟨table, inv.trie.congr same, inv.maps, inv.filed.congr same⟩

theorem Inv.agree (inv : m.Inv table) : m.Agree := by
  refine ⟨?_, ?_⟩
  · intro s filter p
    rw [inv.maps, inv.trie]
  · intro path data member s entry held
    have reached := (Trie.mem_nodes_iff m.topics.wf).mp member
    rcases Option.map_eq_some_iff.mp reached with ⟨leaf, found, rfl⟩
    refine ⟨(m.topics.ok.find? found).here.filed s entry held, inv.filed path ?_⟩
    intro none
    rw [Topics.Provider.subsAt, Trie.get, reached, Option.getD_some] at none
    rw [none] at held
    exact absurd held (by simp)

/-- A subscriber with an empty map does not occur in the trie. -/
theorem Inv.gone (inv : m.Inv table) {s : Hash} (empty : (m.subscriber s).subscriptions = ∅) :
    m.Gone s := by
  have absent : ∀ path data, (path, data) ∈ m.topics.root.nodes → data.subs.lookup s = none := by
    intro path data member
    cases held : data.subs.lookup s with
    | none => rfl
    | some entry =>
        rcases inv.agree.filters path data member s entry held with ⟨_, filter, rfl⟩
        have reached := (Trie.mem_nodes_iff m.topics.wf).mp member
        have params : m.topics.params filter s = some entry.p := by
          rw [Topics.Provider.params, Topics.Provider.subsAt, Trie.get, reached, Option.getD_some,
            held]
          rfl
        rw [inv.trie, ← inv.maps, empty] at params
        exact absurd params (by simp)
  intro path data member
  refine ⟨absent path data member, ?_⟩
  rintro other entry held rfl
  have own := (inv.agree.filters path data member other entry held).1
  rw [← own, absent path data member] at held
  exact absurd held (by simp)

end Inv

theorem inv_run (mode : Bool) (version : Hash → ProtocolVersion) (calls : List Call) :
    ∃ table, ((new mode version).run calls).Inv table :=
  invariant_run (fun m => ∃ table, Inv m table) (fun _ call before => before.elim fun _ inv =>
    inv.step call) ⟨∅, inv_new mode version⟩ calls

/-- After any calls of any subscribers, each map of subscriptions agrees with the trie; and when a
subscriber then goes offline for good, no node of the trie refers to it. -/
theorem agree_run (mode : Bool) (version : Hash → ProtocolVersion) (calls : List Call) :
    ((new mode version).run calls).Agree ∧ ∀ s order,
      (((new mode version).run calls).step (.offline s order true)).Gone s := by
  rcases inv_run mode version calls with ⟨table, inv⟩
  refine ⟨inv.agree, ?_⟩
  intro s order
  rcases inv.step (.offline s order true) with ⟨next, after⟩
  apply after.gone
  have offline := offline_true (((new mode version).run calls).subscriber s)
    ((new mode version).run calls).topics order
  have hash : (((new mode version).run calls).subscriber s).hash = s :=
    ((new mode version).run calls).hash s
  simp only [step, put, offline, hash, Function.update_self]

end Subscribers

end VolantMQ.Clients
