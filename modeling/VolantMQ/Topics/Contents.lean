import VolantMQ.Topics.Retained

/-!
# Nothing is found that was not put there

What a search returns comes from the nodes it visits, and what a node holds was put there by an
earlier operation. So a property of all retained objects and of all subscriptions ever passed to a
provider is a property of everything its searches return, in both overlap modes.
-/

namespace VolantMQ.Topics

open Lib Packet

/-- A `systree` value stands for a QoS 0 packet of one version. -/
theorem DynamicValue.retained_spec (value : DynamicValue) (now : Time) :
    (value.retained now).version = ProtocolV311 ∧ (value.retained now).qos = QoS0 := by
  have zero : (Publish.putFlag (Publish.putQoS 0 QoS0) Publish.maskPublishFlagRetain true &&&
      Publish.maskPublishFlagQoS) >>> 1 = QoS0 := by decide
  simp only [DynamicValue.retained, Publish.setTopic]
  generalize (decide ((Publish.new ProtocolV311).version < ProtocolV50) &&
    value.topic.length == 0 || !validTopic value.topic) = refused
  cases refused with
  | false => exact ⟨rfl, zero⟩
  | true => exact ⟨rfl, zero⟩

namespace Node

variable {good : NodeData → Prop} {root : Node}

theorem good_child (all : root.All good) {level : Level} {n : Node}
    (found : root.child? level = some n) : n.All good :=
  all.branch _ (Trie.mem_children_of_child? found)

theorem good_visitChild (all : root.All good) {level : Level} {entry : List Level × NodeData}
    (member : entry ∈ root.visitChild level) : good entry.2 := by
  simp only [visitChild, List.mem_map, Option.mem_toList] at member
  rcases member with ⟨n, found, rfl⟩
  exact (good_child all found).here

theorem good_under {level : Level} {entries : List (List Level × NodeData)}
    (spec : ∀ entry ∈ entries, good entry.2) : ∀ entry ∈ under level entries, good entry.2 := by
  intro entry member
  rcases List.mem_map.mp member with ⟨inner, innerMem, rfl⟩
  exact spec inner innerMem

/-- Descending to a child under one level, for any search of it. -/
theorem good_below {search : Node → List (List Level × NodeData)}
    (spec : ∀ n : Node, n.All good → ∀ entry ∈ search n, good entry.2) (all : root.All good)
    {level : Level} : ∀ entry ∈ (root.child? level).toList.flatMap fun n =>
      under level (search n), good entry.2 := by
  intro entry member
  simp only [List.mem_flatMap, Option.mem_toList] at member
  rcases member with ⟨n, found, inner⟩
  exact good_under (spec n (good_child all found)) entry inner

theorem good_visited {levels : List Level} (all : root.All good) :
    ∀ entry ∈ visited levels root, good entry.2 := by
  induction levels generalizing root with
  | nil =>
      intro entry member
      rcases List.mem_cons.mp member with rfl | wildcard
      · exact all.here
      · exact good_visitChild all wildcard
  | cons level levels ih =>
      intro entry member
      rw [visited, List.mem_append, List.mem_append] at member
      rcases member with (wildcard | exactly) | single
      · split at wildcard
        · exact good_visitChild all wildcard
        · simp at wildcard
      · exact good_below (fun n => @ih n) all entry exactly
      · exact good_below (fun n => @ih n) all entry single

theorem good_searchVisited {topic : GoString} (all : root.All good) :
    ∀ entry ∈ searchVisited topic root, good entry.2 := by
  intro entry member
  unfold searchVisited at member
  split at member
  · simp at member
  · split at member
    · exact good_visited all entry member
    · exact good_below (fun n holds => good_visited holds) all entry member

theorem good_retainRecurseVisited {levels : List Level} (all : root.All good) :
    ∀ entry ∈ retainRecurseVisited levels root, good entry.2 := by
  induction levels generalizing root with
  | nil =>
      intro entry member
      rcases List.mem_cons.mp member with rfl | wildcard
      · exact all.here
      · exact good_below (fun n holds => holds.of_mem_nodes) all entry wildcard
  | cons level levels ih =>
      intro entry member
      rw [retainRecurseVisited] at member
      split at member
      · exact all.of_mem_nodes entry member
      · split at member
        · rcases List.mem_flatMap.mp member with ⟨branch, branchMem, inner⟩
          exact good_under (ih (all.branch branch branchMem)) entry inner
        · exact good_below (fun n => @ih n) all entry member

theorem good_retainVisited {filter : GoString} (all : root.All good) :
    ∀ entry ∈ retainVisited filter root, good entry.2 := by
  intro entry member
  unfold retainVisited at member
  split at member
  · simp at member
  · split at member
    · rcases List.mem_flatMap.mp member with ⟨branch, branchMem, inner⟩
      split at inner
      · exact good_under (all.branch branch branchMem).of_mem_nodes entry inner
      · simp at inner
    · split at member
      · exact good_below (fun n holds => good_retainRecurseVisited holds) all entry member
      · exact good_retainRecurseVisited all entry member

end Node

namespace NodeData

/-- Every entry of a search result belongs to the subscriber it is filed under and has the granted
QoS of a subscription of that subscriber. -/
def Fed (held : Hash → SubscriptionParams → Prop) (p : PublishEntries) : Prop :=
  ∀ id entries, p.lookup id = some entries → ∀ entry ∈ entries,
    entry.s = id ∧ ∃ params, held id params ∧ entry.qos = params.Granted

variable {held : Hash → SubscriptionParams → Prop} {p : PublishEntries} {publishID : Hash}

theorem Fed.insert (fed : Fed held p) {id : Hash} {entries : List PublishEntry}
    (fresh : ∀ entry ∈ entries,
      entry.s = id ∧ ∃ params, held id params ∧ entry.qos = params.Granted) :
    Fed held (p.insert id entries) := by
  intro other found look
  by_cases same : other = id
  · subst other
    rw [AList.lookup_insert, Option.some.injEq] at look
    exact look ▸ fresh
  · rw [AList.lookup_insert_ne same] at look
    exact fed other found look

section Entry

variable {sub : Σ _ : Hash, SubscribedEntry} (own : sub.2.s = sub.1) (mine : held sub.1 sub.2.p)

include own mine

theorem fed_acquire : (acquire sub.2).s = sub.1 ∧
    ∃ params, held sub.1 params ∧ (acquire sub.2).qos = params.Granted :=
  ⟨own, sub.2.p, mine, rfl⟩

theorem fed_addNonOverlapping (fed : Fed held p) : Fed held (addNonOverlapping publishID p sub) := by
  unfold addNonOverlapping
  split
  · cases present : p.lookup sub.1 with
    | none =>
        refine fed.insert fun entry member => ?_
        rw [List.mem_singleton] at member
        exact member ▸ fed_acquire own mine
    | some entries =>
        refine fed.insert fun entry member => ?_
        rcases List.mem_append.mp member with before | new
        · exact fed _ _ present entry before
        · rw [List.mem_singleton] at new
          exact new ▸ fed_acquire own mine
  · exact fed

/-- The merged entry has the larger of the two granted values. -/
theorem fed_addOverlapping (fed : Fed held p) : Fed held (addOverlapping publishID p sub) := by
  unfold addOverlapping
  cases present : p.lookup sub.1 with
  | none =>
      simp only
      split
      · refine fed.insert fun entry member => ?_
        rw [List.mem_singleton] at member
        exact member ▸ fed_acquire own mine
      · exact fed
  | some entries =>
      refine fed.insert ?_
      cases entries with
      | nil => simp [mergeInto]
      | cons first rest =>
          have old := fed _ _ present
          intro entry member
          rcases List.mem_cons.mp member with rfl | other
          · refine ⟨(old first (by simp)).1, ?_⟩
            simp only
            split
            · exact ⟨sub.2.p, mine, rfl⟩
            · exact (old first (by simp)).2
          · exact old entry (by simp [other])

end Entry

/-- What a node holds: retained objects and subscriptions with given properties, the latter filed
under their own subscriber. -/
structure Holds (kept : RetainObject → Prop) (held : Hash → SubscriptionParams → Prop)
    (data : NodeData) : Prop where
  retained : ∀ obj, data.retained = some obj → kept obj
  subs : ∀ sub entry, data.subs.lookup sub = some entry → entry.s = sub ∧ held sub entry.p

theorem Holds.getSubscribers {kept : RetainObject → Prop} {data : NodeData}
    (holds : data.Holds kept held) (fed : Fed held p) :
    Fed held (data.getSubscribers publishID p) := by
  have entries : ∀ sub ∈ data.subs.entries, sub.2.s = sub.1 ∧ held sub.1 sub.2.p :=
    fun sub member => holds.subs sub.1 sub.2 (AList.mem_lookup_iff.mpr member)
  unfold NodeData.getSubscribers overlappingSubscribers nonOverlappingSubscribers
  generalize data.subs.entries = subs at entries
  split
  · induction subs generalizing p with
    | nil => exact fed
    | cons sub subs ih =>
        have first := entries sub (by simp)
        exact ih (fed_addOverlapping first.1 first.2 fed)
          fun other member => entries other (by simp [member])
  · induction subs generalizing p with
    | nil => exact fed
    | cons sub subs ih =>
        have first := entries sub (by simp)
        exact ih (fed_addNonOverlapping first.1 first.2 fed)
          fun other member => entries other (by simp [member])

end NodeData

namespace Provider

/-- All nodes of a provider hold objects and subscriptions with given properties. -/
def Holds (kept : RetainObject → Prop) (held : Hash → SubscriptionParams → Prop) (mT : Provider) :
    Prop :=
  mT.root.All (NodeData.Holds kept held)

variable {kept : RetainObject → Prop} {held : Hash → SubscriptionParams → Prop} {mT : Provider}

theorem holds_blank (overlap : Bool) : (NodeData.new overlap).Holds kept held :=
  ⟨by simp [NodeData.new], by simp [NodeData.new]⟩

theorem holds_empty (allowOverlapping : Bool) : (empty allowOverlapping).Holds kept held :=
  .node (holds_blank allowOverlapping) (by simp)

theorem Holds.mono (holds : mT.Holds kept held) {more : Hash → SubscriptionParams → Prop}
    (larger : ∀ id params, held id params → more id params) : mT.Holds kept more :=
  holds.imp fun _ node => ⟨node.retained, fun sub entry look =>
    ⟨(node.subs sub entry look).1, larger _ _ (node.subs sub entry look).2⟩⟩

theorem Holds.subscriptionInsert (holds : mT.Holds kept held) (filter : GoString) {sub : Hash}
    {p : SubscriptionParams} (mine : held sub p) :
    (mT.subscriptionInsert filter sub p).1.Holds kept held := by
  refine Trie.All.insertWith (holds_blank _) ?_ holds _
  intro data node
  have put : ∀ entry : SubscribedEntry, entry.s = sub → entry.p = p →
      ∀ other found, (data.subs.insert sub entry).lookup other = some found →
        found.s = other ∧ held other found.p := by
    intro entry own params other found look
    by_cases same : other = sub
    · subst other
      rw [AList.lookup_insert, Option.some.injEq] at look
      rw [← look, own, params]
      exact ⟨rfl, mine⟩
    · rw [AList.lookup_insert_ne same] at look
      exact node.subs other found look
  unfold putSubscriber
  cases found : data.subs.lookup sub with
  | none => exact ⟨node.retained, put ⟨sub, p⟩ rfl rfl⟩
  | some s => exact ⟨node.retained, put { s with p := p } (node.subs sub s found).1 rfl⟩

theorem Holds.unSubscribe (holds : mT.Holds kept held) (topic : GoString) (sub : Option Hash) :
    (mT.unSubscribe topic sub).1.Holds kept held := by
  simp only [Provider.unSubscribe, subscriptionRemove]
  split
  · exact holds
  · refine Trie.All.pruneWith _ ?_ holds _
    intro data node
    refine ⟨by cases sub <;> exact node.retained, ?_⟩
    intro other entry look
    cases sub with
    | none => simp [dropSubscriber] at look
    | some id =>
        by_cases same : other = id
        · subst other
          simp [dropSubscriber] at look
        · simp only [dropSubscriber] at look
          rw [AList.lookup_erase_ne same] at look
          exact node.subs other entry look

theorem Holds.retain (holds : mT.Holds kept held) {obj : RetainObject} (good : kept obj) :
    (mT.retain obj).Holds kept held := by
  have inserted : ∀ other : Provider, other.Holds kept held →
      (other.retainInsert obj.topic obj).Holds kept held := by
    intro other before
    refine Trie.All.insertWith (holds_blank _) ?_ before _
    intro data node
    exact ⟨fun found same => Option.some.inj same ▸ good, node.subs⟩
  have removed : (mT.retainRemove obj.topic).1.Holds kept held := by
    unfold retainRemove
    cases Node.leafSearchNode mT.root (split obj.topic) with
    | none => exact holds
    | some leaf =>
        refine Trie.All.pruneWith _ ?_ holds _
        intro data node
        exact ⟨by simp, node.subs⟩
  cases obj with
  | publish t =>
      simp only [Provider.retain]
      split
      · split
        · exact removed
        · exact holds
      · split
        · exact inserted _ removed
        · exact inserted _ holds
  | dynamic value => exact inserted mT holds

theorem Holds.retainSearch (holds : mT.Holds kept held) (filter : GoString) (now : Time) :
    (mT.retainSearch filter now).1.Holds kept held := by
  have harmless := Node.harmless_retainSearch now filter mT.root mT.wf
  refine Trie.All.of_pointwise ?_ harmless.1 harmless.2 holds
  intro before after expires node
  refine ⟨?_, by rw [expires.subs]; exact node.subs⟩
  intro obj found
  rcases expires with rfl | rfl
  · exact node.retained obj found
  · rcases before with ⟨_ | old, subs, overlap⟩
    · simp [NodeData.dropExpired] at found
    · simp only [NodeData.dropExpired] at found
      split at found
      · simp at found
      · exact node.retained obj found

theorem Holds.subscribe (holds : mT.Holds kept held) (filter : GoString) {s : Hash}
    {p : SubscriptionParams} (mine : held s { p with Granted := p.Ops.qos }) (now : Time) :
    (mT.subscribe filter s p now).1.Holds kept held := by
  have inserted := holds.subscriptionInsert filter mine
  unfold Provider.subscribe
  simp only
  split
  · exact inserted.retainSearch filter now
  · exact inserted

/-- An operation brings nothing into a provider but what it retains or subscribes. -/
theorem Holds.step (holds : mT.Holds kept held) (op : Op)
    (brings : ∀ obj, op = .retain obj → kept obj)
    (subscribes : ∀ filter s p now, op = .subscribe filter s p now →
      held s { p with Granted := p.Ops.qos }) : (mT.step op).1.Holds kept held := by
  cases op with
  | subscribe filter s p now => exact holds.subscribe filter (subscribes _ _ _ _ rfl) now
  | unSubscribe filter s => exact holds.unSubscribe filter (some s)
  | unSubscribeAll filter => exact holds.unSubscribe filter none
  | retain obj => exact holds.retain (brings obj rfl)
  | retained filter now => exact holds.retainSearch filter now

theorem Holds.run (holds : mT.Holds kept held) {ops : List Op}
    (brings : ∀ obj, .retain obj ∈ ops → kept obj)
    (subscribes : ∀ filter s p now, .subscribe filter s p now ∈ ops →
      held s { p with Granted := p.Ops.qos }) : (mT.run ops).1.Holds kept held := by
  induction ops generalizing mT with
  | nil => exact holds
  | cons op ops ih =>
      have next := holds.step op (fun obj same => brings obj (same ▸ List.mem_cons_self))
        (fun filter s p now same => subscribes filter s p now (same ▸ List.mem_cons_self))
      exact ih next (fun obj later => brings obj (List.mem_cons_of_mem _ later))
        (fun filter s p now later => subscribes filter s p now (List.mem_cons_of_mem _ later))

/-- A packet found by a retained search stands for an object that was retained. -/
theorem Holds.of_mem_retainSearch (holds : mT.Holds kept held) {filter : GoString} {now : Time}
    {p : Publish} (member : p ∈ (mT.retainSearch filter now).2) :
    ∃ obj, kept obj ∧ p = obj.packetAt now := by
  have found : p ∈ Node.livePackets now (Node.retainVisited filter mT.root) :=
    Node.retainSearch_snd mT.root filter now ▸ member
  rcases List.mem_filterMap.mp found with ⟨entry, visited, live⟩
  have node := Node.good_retainVisited holds entry visited
  unfold NodeData.liveRetained at live
  split at live
  · simp at live
  · rename_i obj here
    split at live
    · simp at live
    · exact ⟨obj, node.retained obj here, (Option.some.inj live).symm⟩

theorem Holds.of_mem_subscribe (holds : mT.Holds kept held) {filter : GoString} {s : Hash}
    {p : SubscriptionParams} (mine : held s { p with Granted := p.Ops.qos }) {now : Time}
    {found : Publish} (member : found ∈ (mT.subscribe filter s p now).2.retained) :
    ∃ obj, kept obj ∧ found = obj.packetAt now := by
  have inserted := holds.subscriptionInsert filter mine
  unfold Provider.subscribe at member
  simp only at member
  split at member
  · exact inserted.of_mem_retainSearch member
  · simp at member

/-- An entry found by a subscription search has the granted QoS of a subscription of its
subscriber. -/
theorem Holds.of_mem_subscriptionSearch (holds : mT.Holds kept held) {topic : GoString}
    {publishID : Hash} {entry : PublishEntry}
    (member : entry ∈ NodeData.flat (mT.subscriptionSearch topic publishID)) :
    ∃ params, held entry.s params ∧ entry.qos = params.Granted := by
  have fed : NodeData.Fed held (mT.subscriptionSearch topic publishID) := by
    unfold Provider.subscriptionSearch
    rw [Node.subscriptionSearch_eq_collect]
    have visited := @Node.good_searchVisited _ mT.root topic holds
    generalize Node.searchVisited topic mT.root = entries at visited
    have start : NodeData.Fed held ∅ := by simp [NodeData.Fed]
    generalize (∅ : PublishEntries) = p at start
    induction entries generalizing p with
    | nil => exact start
    | cons first entries ih =>
        exact ih (fun other there => visited other (by simp [there])) _
          ((visited first (by simp)).getSubscribers start)
  rcases List.mem_flatMap.mp member with ⟨group, groupMem, entryMem⟩
  have own := fed group.1 group.2 (AList.mem_lookup_iff.mpr groupMem) entry entryMem
  exact own.1 ▸ own.2

end Provider

end VolantMQ.Topics
