import VolantMQ.Lib.Run
import VolantMQ.Topics.Retained

/-!
# The retained store

What the retained objects in the trie are for, without a trie: a finite map from a topic to the
object retained for it. A message without payload deletes the entry of its topic, any other object
replaces it, and subscriptions do not touch the map. A filter selects entries of the map by topic.

The objects share the nodes of the trie with the subscriptions and are found there by three
recursions. This file shows that none of this can be seen from outside as long as nothing expires:
after every history the trie holds exactly the entries of the map, and a search returns each entry
its filter selects once.
-/

namespace VolantMQ.Topics

open Lib Packet

/-- The retained objects by topic. -/
abbrev Store := AList fun _ : GoString => RetainObject

namespace RetainObject

/-- What is retained for a topic after the object was: a message without payload clears it. -/
def kept : RetainObject → Option RetainObject
  | publish packet => if packet.payload.length = 0 then none else some (publish packet)
  | dynamic value => some (dynamic value)

theorem eq_of_kept {obj other : RetainObject} (kept : obj.kept = some other) : obj = other := by
  cases obj with
  | publish packet =>
      simp only [RetainObject.kept] at kept
      split at kept
      · exact absurd kept (by simp)
      · exact Option.some.inj kept
  | dynamic value => exact Option.some.inj kept

end RetainObject

/-- Whether a filter selects a topic: `#` alone leaves out the first levels that are empty or
start with `$`; otherwise `+` selects any level, a final `#` any number of further levels and a
literal itself. -/
def filterSelects (filter topic : GoString) : Bool :=
  if filter = MWC then
    (split topic).head?.all fun first => first.length != 0 && !isSystem first
  else selects (split filter) (split topic)

namespace Store

/-- The effect of retaining an object. -/
def put (store : Store) (obj : RetainObject) : Store :=
  match obj.kept with
  | some kept => store.insert obj.topic kept
  | none => store.erase obj.topic

/-- The effect of one operation on the store. -/
def step (store : Store) : Provider.Op → Store
  | .retain obj => store.put obj
  | _ => store

/-- Run a sequence of operations on the store. -/
def run (store : Store) (ops : List Provider.Op) : Store := ops.foldl step store

/-- The packets of the entries that a filter selects. -/
def select (store : Store) (filter : GoString) (now : Time) : List Publish :=
  (store.entries.filter fun entry => filterSelects filter entry.1).map fun entry =>
    entry.2.packetAt now

theorem mem_entries_iff {store : Store} {topic : GoString} {obj : RetainObject} :
    (⟨topic, obj⟩ : Σ _ : GoString, RetainObject) ∈ store.entries ↔
      store.lookup topic = some obj :=
  AList.mem_lookup_iff.symm

/-- The entries that a filter selects, each under the levels of its topic. -/
def chosen (store : Store) (filter : GoString) : List (List Level × RetainObject) :=
  (store.entries.filter fun entry => filterSelects filter entry.1).map fun entry =>
    (split entry.1, entry.2)

theorem select_eq (store : Store) (filter : GoString) (now : Time) :
    store.select filter now = (store.chosen filter).map fun entry => entry.2.packetAt now := by
  simp [select, chosen, List.map_map, Function.comp_def]

theorem mem_chosen {store : Store} {filter : GoString} {path : List Level} {obj : RetainObject} :
    (path, obj) ∈ store.chosen filter ↔ ∃ topic, split topic = path ∧
      store.lookup topic = some obj ∧ filterSelects filter topic = true := by
  simp only [chosen, List.mem_map, List.mem_filter, Prod.mk.injEq]
  constructor
  · rintro ⟨⟨topic, other⟩, ⟨member, selected⟩, rfl, rfl⟩
    exact ⟨topic, rfl, mem_entries_iff.mp member, selected⟩
  · rintro ⟨topic, rfl, look, selected⟩
    exact ⟨⟨topic, obj⟩, ⟨mem_entries_iff.mpr look, selected⟩, rfl, rfl⟩

theorem nodup_chosen (store : Store) (filter : GoString) : (store.chosen filter).Nodup := by
  apply List.Nodup.of_map Prod.fst
  have keys : (store.entries.map Sigma.fst).Nodup := store.nodupKeys
  have kept : ((store.entries.filter fun entry => filterSelects filter entry.1).map
      Sigma.fst).Nodup := keys.sublist (List.filter_sublist.map _)
  simpa [chosen, List.map_map, Function.comp_def] using kept.map split_injective

theorem lookup_put (store : Store) (obj : RetainObject) (topic : GoString) :
    (store.put obj).lookup topic = if topic = obj.topic then obj.kept else store.lookup topic := by
  unfold put
  by_cases same : topic = obj.topic
  · subst topic
    cases kept : obj.kept <;> simp
  · cases kept : obj.kept with
    | none => simp [same, AList.lookup_erase_ne same]
    | some other => simp [same, AList.lookup_insert_ne same]

/-- Every entry of the store is an object that one of the operations retains. -/
def From (store : Store) (ops : List Provider.Op) : Prop :=
  ∀ topic obj, store.lookup topic = some obj → .retain obj ∈ ops ∧ obj.topic = topic

theorem From.empty (ops : List Provider.Op) : From ∅ ops := by
  intro topic obj impossible
  simp at impossible

theorem From.step {ops : List Provider.Op} {store : Store} (before : store.From ops)
    {op : Provider.Op} (member : op ∈ ops) : (store.step op).From ops := by
  intro topic obj found
  cases op with
  | retain last =>
      rw [Store.step, lookup_put] at found
      split at found
      · rename_i same
        have itself : last = obj := RetainObject.eq_of_kept found
        subst itself
        exact ⟨member, same.symm⟩
      · exact before topic obj found
  | subscribe filter s p now => exact before topic obj found
  | unSubscribe filter s => exact before topic obj found
  | unSubscribeAll filter => exact before topic obj found
  | retained filter now => exact before topic obj found

theorem from_run (ops : List Provider.Op) : (run ∅ ops).From ops :=
  invariant_of_mem (fun store => From store ops) (fun _ member _ before => before.step member)
    (From.empty ops)

end Store

namespace Provider

/-- The object retained at a path. -/
def retainedAt (mT : Provider) (path : List Level) : Option RetainObject :=
  (mT.root.get mT.blank path).retained

theorem retained_of_isBlank {overlap : Bool} (data : NodeData) (dead : data.isBlank = true) :
    data.retained = (NodeData.new overlap).retained := by
  simp only [NodeData.isBlank, Bool.and_eq_true, Option.isNone_iff_eq_none] at dead
  exact dead.2

theorem retainedAt_insertAt (mT : Provider) (levels : List Level) (assign : NodeData → NodeData)
    (keeps : ∀ data, data.Ok mT.allowOverlapping → (assign data).Ok mT.allowOverlapping)
    (path : List Level) :
    (mT.insertAt levels assign keeps).retainedAt path =
      if path = levels then (assign (mT.root.get mT.blank levels)).retained
      else mT.retainedAt path := by
  simp only [retainedAt, insertAt, Node.leafInsertNode, blank, Trie.get_insertWith]
  split <;> rfl

theorem retainedAt_cleanUpAt (mT : Provider) {levels : List Level} (assign : NodeData → NodeData)
    (keeps : ∀ data, data.Ok mT.allowOverlapping → (assign data).Ok mT.allowOverlapping)
    (present : (mT.root.find? levels).isSome) (path : List Level) :
    (mT.cleanUpAt levels assign keeps).retainedAt path =
      if path = levels then (assign (mT.root.get mT.blank levels)).retained
      else mT.retainedAt path :=
  Trie.observe_get_pruneWith retained_of_isBlank assign mT.wf present path

theorem retainedAt_of_missing {mT : Provider} {path : List Level}
    (missing : mT.root.find? path = none) : mT.retainedAt path = none := by
  simp [retainedAt, Trie.get, missing, blank, NodeData.new]

theorem retainedAt_subscriptionInsert (mT : Provider) (filter : GoString) (sub : Hash)
    (p : SubscriptionParams) (path : List Level) :
    (mT.subscriptionInsert filter sub p).1.retainedAt path = mT.retainedAt path := by
  rw [subscriptionInsert, retainedAt_insertAt]
  split
  · rename_i same
    simp only [putSubscriber, same, retainedAt]
    split <;> rfl
  · rfl

theorem retainedAt_unSubscribe (mT : Provider) (topic : GoString) (sub : Option Hash)
    (path : List Level) : (mT.unSubscribe topic sub).1.retainedAt path = mT.retainedAt path := by
  simp only [unSubscribe, subscriptionRemove]
  cases found : Node.leafSearchNode mT.root (split topic) with
  | none => rfl
  | some leaf =>
      have present : (mT.root.find? (split topic)).isSome := by
        rw [Node.leafSearchNode] at found
        simp [found]
      rw [retainedAt_cleanUpAt mT _ _ present]
      split
      · rename_i same
        simp only [same, retainedAt]
        cases sub <;> rfl
      · rfl

theorem retainedAt_retainInsert (mT : Provider) (topic : GoString) (obj : RetainObject)
    (path : List Level) :
    (mT.retainInsert topic obj).retainedAt path =
      if path = split topic then some obj else mT.retainedAt path := by
  rw [retainInsert, retainedAt_insertAt]

theorem retainedAt_retainRemove (mT : Provider) (topic : GoString) (path : List Level) :
    (mT.retainRemove topic).1.retainedAt path =
      if path = split topic then none else mT.retainedAt path := by
  unfold retainRemove
  cases found : Node.leafSearchNode mT.root (split topic) with
  | none =>
      by_cases same : path = split topic
      · subst same
        rw [if_pos rfl]
        exact retainedAt_of_missing found
      · rw [if_neg same]
  | some leaf =>
      have present : (mT.root.find? (split topic)).isSome := by
        rw [Node.leafSearchNode] at found
        simp [found]
      rw [retainedAt_cleanUpAt mT _ _ present]

/-- Retaining an object changes what is retained for its topic and for no other. -/
theorem retainedAt_retain (mT : Provider) (obj : RetainObject) (path : List Level) :
    (mT.retain obj).retainedAt path =
      if path = split obj.topic then obj.kept else mT.retainedAt path := by
  cases obj with
  | dynamic value => exact retainedAt_retainInsert mT _ _ path
  | publish t =>
      by_cases empty : t.payload.length = 0
      · simp only [retain, empty, true_or, if_true, retainedAt_retainRemove, RetainObject.kept]
      · simp only [retain, empty, false_or, if_false, retainedAt_retainInsert, RetainObject.kept]
        by_cases same : path = split (RetainObject.topic (.publish t))
        · rw [if_pos same, if_pos same]
        · rw [if_neg same, if_neg same]
          split
          · rw [retainedAt_retainRemove, if_neg same]
          · rfl

/-- A retained search loses nothing but what has expired. -/
theorem retainedAt_retainSearch (mT : Provider) (filter : GoString) (now : Time)
    (path : List Level) :
    (mT.retainSearch filter now).1.retainedAt path = mT.retainedAt path ∨
      ∃ obj, mT.retainedAt path = some obj ∧ (obj.packetAt now).expired now = true := by
  have pointwise := (Node.harmless_retainSearch now filter mT.root mT.wf).2 path
  simp only [retainedAt, blank, Provider.retainSearch, Trie.get]
  generalize (mT.root.find? path).map Trie.value = before at pointwise ⊢
  generalize ((Node.retainSearch mT.root filter now).1.find? path).map Trie.value = after
    at pointwise ⊢
  cases pointwise with
  | none => exact .inl rfl
  | @some before after expires =>
      simp only [Option.getD_some]
      rcases expires with rfl | rfl
      · exact .inl rfl
      · cases held : before.retained with
        | none => simp [NodeData.dropExpired, held]
        | some obj =>
            by_cases gone : (obj.packetAt now).expired now = true
            · exact .inr ⟨obj, rfl, gone⟩
            · simp [NodeData.dropExpired, held, gone]

/-- The instant at which an operation asks for the time. -/
def Op.now? : Op → Option Time
  | .subscribe _ _ _ now => some now
  | .retained _ now => some now
  | _ => none

/-- An operation at an instant at which nothing retained has expired changes what is retained
as it changes the store. -/
theorem retainedAt_step {mT : Provider} {op : Op} {path : List Level}
    (alive : ∀ now, op.now? = some now → ∀ obj, mT.retainedAt path = some obj →
      (obj.packetAt now).expired now = false) :
    (mT.step op).1.retainedAt path =
      match op with
      | .retain obj => if path = split obj.topic then obj.kept else mT.retainedAt path
      | _ => mT.retainedAt path := by
  have searched : ∀ (other : Provider) (filter : GoString) (now : Time),
      op.now? = some now → other.retainedAt path = mT.retainedAt path →
        (other.retainSearch filter now).1.retainedAt path = mT.retainedAt path := by
    intro other filter now asks same
    rcases retainedAt_retainSearch other filter now path with kept | ⟨obj, held, gone⟩
    · exact kept.trans same
    · rw [alive now asks obj (same.symm.trans held)] at gone
      exact absurd gone (by decide)
  cases op with
  | subscribe filter s p now =>
      have inserted := retainedAt_subscriptionInsert mT filter s { p with Granted := p.Ops.qos } path
      simp only [step, subscribe]
      split
      · exact searched _ filter now rfl inserted
      · exact inserted
  | unSubscribe filter s => exact retainedAt_unSubscribe mT filter (some s) path
  | unSubscribeAll filter => exact retainedAt_unSubscribe mT filter none path
  | retain obj => exact retainedAt_retain mT obj path
  | retained filter now => exact searched mT filter now rfl rfl

end Provider

namespace Node

theorem fst_under (level : Level) (entries : List (List Level × NodeData)) :
    (under level entries).map Prod.fst = (entries.map Prod.fst).map fun path => level :: path := by
  simp [under, List.map_map, Function.comp_def]

theorem nodup_under (level : Level) {entries : List (List Level × NodeData)}
    (distinct : (entries.map Prod.fst).Nodup) : ((under level entries).map Prod.fst).Nodup := by
  rw [fst_under]
  apply distinct.map
  intro left right equation
  exact (List.cons.inj equation).2

/-- The nodes read below the children that pass a test. -/
theorem nodup_children {root : Node} (wf : root.WF)
    {search : (Σ _ : Level, Node) → List (List Level × NodeData)}
    (each : ∀ branch ∈ root.children, ((search branch).map Prod.fst).Nodup) :
    ((root.children.flatMap fun branch => under branch.1 (search branch)).map
      Prod.fst).Nodup := by
  have distinct := Trie.nodup_below wf.keys _ each
  rw [List.map_flatMap]
  simpa only [fst_under] using distinct

theorem nodup_child {root : Node} (level : Level) {search : Node → List (List Level × NodeData)}
    (each : ∀ n, root.child? level = some n → ((search n).map Prod.fst).Nodup) :
    (((root.child? level).toList.flatMap fun n => under level (search n)).map Prod.fst).Nodup := by
  cases found : root.child? level with
  | none => simp
  | some n => simpa using nodup_under level (each n found)

theorem nodup_retainRecurseVisited {levels : List Level} {root : Node} (wf : root.WF) :
    ((retainRecurseVisited levels root).map Prod.fst).Nodup := by
  induction levels generalizing root with
  | nil =>
      have below : (((root.child? MWC).toList.flatMap fun n => under MWC n.nodes).map
          Prod.fst).Nodup := by
        apply nodup_child
        intro n found
        exact Trie.nodup_nodes (wf.child? found)
      rw [retainRecurseVisited, List.map_cons, List.nodup_cons]
      refine ⟨?_, below⟩
      intro member
      rcases List.mem_map.mp member with ⟨⟨path, data⟩, entry, rfl⟩
      rcases List.mem_flatMap.mp entry with ⟨n, _, deeper⟩
      rcases mem_under.mp deeper with ⟨rest, equation, _⟩
      exact absurd equation (by simp)
  | cons level levels ih =>
      rw [retainRecurseVisited]
      split
      · exact Trie.nodup_nodes wf
      · split
        · apply nodup_children wf
          intro branch member
          exact ih (wf.branch branch member)
        · apply nodup_child
          intro n found
          exact ih (wf.child? found)

theorem nodup_retainVisited {filter : GoString} {root : Node} (wf : root.WF) :
    ((retainVisited filter root).map Prod.fst).Nodup := by
  unfold retainVisited
  cases split filter with
  | nil => simp
  | cons level levels =>
      simp only
      split
      · have guarded : ∀ branch : Σ _ : Level, Node,
            (if branch.1.length != 0 && !isSystem branch.1 then under branch.1 branch.2.nodes
              else []) =
            under branch.1 (if branch.1.length != 0 && !isSystem branch.1 then branch.2.nodes
              else []) := by
          intro branch
          split <;> rfl
        simp only [guarded]
        apply nodup_children wf
        intro branch member
        split
        · exact Trie.nodup_nodes (wf.branch branch member)
        · exact List.nodup_nil
      · split
        · apply nodup_child
          intro n found
          exact nodup_retainRecurseVisited (wf.child? found)
        · exact nodup_retainRecurseVisited wf

/-- The root of the trie, which belongs to no topic, is not read. -/
theorem ne_nil_of_mem_retainVisited {filter : GoString} {root : Node} (wf : root.WF)
    {path : List Level} {data : NodeData} (member : (path, data) ∈ retainVisited filter root) :
    path ≠ [] := by
  rintro rfl
  unfold retainVisited at member
  cases levels : split filter with
  | nil => simp [levels] at member
  | cons level rest =>
      simp only [levels] at member
      split at member
      · rcases List.mem_flatMap.mp member with ⟨branch, _, deeper⟩
        split at deeper
        · rcases mem_under.mp deeper with ⟨_, equation, _⟩
          exact absurd equation (by simp)
        · simp at deeper
      · rename_i notMulti
        split at member
        · rcases List.mem_flatMap.mp member with ⟨n, _, deeper⟩
          rcases mem_under.mp deeper with ⟨_, equation, _⟩
          exact absurd equation (by simp)
        · rw [mem_retainRecurseVisited wf] at member
          simp [retainSelects, notMulti] at member

/-- The retained objects at visited nodes, each with its path. -/
def heldAt (entries : List (List Level × NodeData)) : List (List Level × RetainObject) :=
  entries.filterMap fun entry => entry.2.retained.map fun obj => (entry.1, obj)

theorem mem_heldAt {entries : List (List Level × NodeData)} {path : List Level}
    {obj : RetainObject} :
    (path, obj) ∈ heldAt entries ↔ ∃ data, (path, data) ∈ entries ∧ data.retained = some obj := by
  simp only [heldAt, List.mem_filterMap, Option.map_eq_some_iff, Prod.mk.injEq]
  constructor
  · rintro ⟨⟨path, data⟩, member, held, retained, rfl, rfl⟩
    exact ⟨data, member, retained⟩
  · rintro ⟨data, member, retained⟩
    exact ⟨(path, data), member, obj, retained, rfl, rfl⟩

theorem nodup_heldAt {entries : List (List Level × NodeData)}
    (distinct : (entries.map Prod.fst).Nodup) : (heldAt entries).Nodup := by
  apply List.Nodup.of_map Prod.fst
  have sublist : ((heldAt entries).map Prod.fst).Sublist (entries.map Prod.fst) := by
    induction entries with
    | nil => exact List.Sublist.refl _
    | cons entry entries ih =>
        have rest := ih (List.nodup_cons.mp distinct).2
        rw [heldAt, List.filterMap_cons]
        cases entry.2.retained with
        | none => exact rest.cons _
        | some obj => exact rest.cons_cons _
  exact distinct.sublist sublist

/-- Where nothing has expired, a search returns the packets of all objects it meets. -/
theorem livePackets_eq_of_alive {entries : List (List Level × NodeData)} {now : Time}
    (alive : ∀ path obj, (path, obj) ∈ heldAt entries →
      (obj.packetAt now).expired now = false) :
    livePackets now entries = (heldAt entries).map fun entry => entry.2.packetAt now := by
  induction entries with
  | nil => rfl
  | cons entry entries ih =>
      rw [livePackets, heldAt, List.filterMap_cons, List.filterMap_cons, ← livePackets, ← heldAt]
      cases held : entry.2.retained with
      | none =>
          have rest := ih fun path obj member => alive path obj (by
            simpa [heldAt, held] using member)
          simpa [NodeData.liveRetained, held] using rest
      | some obj =>
          have here := alive entry.1 obj (by simp [heldAt, held])
          have rest := ih fun path other member => alive path other (by
            rw [heldAt, List.filterMap_cons, held]
            exact List.mem_cons_of_mem _ member)
          simpa [NodeData.liveRetained, held, here] using rest

end Node

theorem retainMatches_eq_filterSelects {filter topic : GoString}
    (wellFormed : WellFormedFilter filter) (free : WildcardFree topic) :
    Node.retainMatches (split filter) (split topic) = filterSelects filter topic := by
  have literal := levels_literal free
  have noMulti : MWC ∉ split topic := fun member => (literal MWC member).1 rfl
  have alone : split MWC = [MWC] := by decide
  unfold filterSelects
  cases topicLevels : split topic with
  | nil => exact absurd topicLevels (split_ne_nil topic)
  | cons t ts =>
      rw [topicLevels] at noMulti
      by_cases multi : filter = MWC
      · simp [multi, alone, Node.retainMatches]
      · rw [if_neg multi]
        have last := wellFormed.last
        cases filterLevels : split filter with
        | nil => exact absurd filterLevels (split_ne_nil filter)
        | cons f fs =>
            have notFirst : f ≠ MWC := by
              rintro rfl
              rw [filterLevels] at last
              rw [eq_nil_of_last last, ← alone] at filterLevels
              exact multi (split_injective filterLevels)
            rw [Node.retainMatches, if_neg notFirst]
            exact retainSelects_eq_selects noMulti

namespace Provider

/-- The trie retains exactly the entries of the store, each at the levels of its topic. -/
def Retains (mT : Provider) (store : Store) : Prop :=
  ∀ path obj, mT.retainedAt path = some obj ↔
    ∃ topic, split topic = path ∧ store.lookup topic = some obj

section Retains

variable {mT : Provider} {store : Store}

theorem retains_empty (mode : Bool) : (empty mode).Retains ∅ := by
  intro path obj
  simp [retainedAt, empty, blank, Trie.get_leaf, NodeData.new]

theorem Retains.step (retains : mT.Retains store) {op : Op}
    (alive : ∀ now, op.now? = some now → ∀ topic obj, store.lookup topic = some obj →
      (obj.packetAt now).expired now = false) :
    (mT.step op).1.Retains (store.step op) := by
  have aliveAt : ∀ path now, op.now? = some now → ∀ obj, mT.retainedAt path = some obj →
      (obj.packetAt now).expired now = false := by
    intro path now asks obj held
    rcases (retains path obj).mp held with ⟨topic, _, found⟩
    exact alive now asks topic obj found
  intro path obj
  rw [retainedAt_step (aliveAt path)]
  cases op with
  | retain last =>
      simp only [Store.step, Store.lookup_put]
      by_cases same : path = split last.topic
      · subst same
        rw [if_pos rfl]
        constructor
        · intro held
          exact ⟨last.topic, rfl, by rw [if_pos rfl]; exact held⟩
        · rintro ⟨topic, equation, held⟩
          rwa [if_pos (split_injective equation)] at held
      · rw [if_neg same, retains]
        apply exists_congr
        intro topic
        apply and_congr_right
        rintro rfl
        rw [if_neg fun equal => same (congrArg split equal)]
  | subscribe filter s p now => exact retains path obj
  | unSubscribe filter s => exact retains path obj
  | unSubscribeAll filter => exact retains path obj
  | retained filter now => exact retains path obj

/-- What is retained follows the store through a whole run. -/
theorem retains_run (mode : Bool) {ops : List Op}
    (lasting : ∀ obj, .retain obj ∈ ops → ∀ op ∈ ops, ∀ now, op.now? = some now →
      (obj.packetAt now).expired now = false) :
    ((empty mode).run ops).1.Retains (Store.run ∅ ops) := by
  -- the induction is on the operations still to come, with the store of those already run
  have follow : ∀ (later : List Op) (mT : Provider) (store : Store), mT.Retains store →
      store.From ops → later ⊆ ops →
        (mT.run later).1.Retains (store.run later) := by
    intro later
    induction later with
    | nil => exact fun _ _ retains _ _ => retains
    | cons op later ih =>
        intro mT store retains fromOps within
        have member : op ∈ ops := within List.mem_cons_self
        apply ih
        · apply retains.step
          intro now asks topic obj held
          exact lasting obj (fromOps topic obj held).1 op member now asks
        · exact fromOps.step member
        · exact fun other later => within (List.mem_cons_of_mem op later)
  exact follow ops _ ∅ (retains_empty mode) (.empty ops) (List.Subset.refl ops)

/-- A search meets the entries of the store that its filter selects. -/
theorem Retains.mem_heldAt (retains : mT.Retains store) {filter : GoString}
    (wellFormed : WellFormedFilter filter)
    (free : ∀ topic obj, store.lookup topic = some obj → WildcardFree topic)
    (path : List Level) (obj : RetainObject) :
    (path, obj) ∈ Node.heldAt (Node.retainVisited filter mT.root) ↔
      ∃ topic, split topic = path ∧ store.lookup topic = some obj ∧
        filterSelects filter topic = true := by
  rw [Node.mem_heldAt]
  constructor
  · rintro ⟨data, visited, held⟩
    cases path with
    | nil => exact absurd rfl (Node.ne_nil_of_mem_retainVisited mT.wf visited)
    | cons key rest =>
        rw [Node.mem_retainVisited mT.wf] at visited
        have atPath : mT.retainedAt (key :: rest) = some obj := by
          rw [retainedAt, Trie.get, visited.1]
          exact held
        rcases (retains _ _).mp atPath with ⟨topic, same, look⟩
        refine ⟨topic, same, look, ?_⟩
        rw [← retainMatches_eq_filterSelects wellFormed (free topic obj look), same]
        exact visited.2
  · rintro ⟨topic, rfl, look, selected⟩
    have atPath := (retains _ _).mpr ⟨topic, rfl, look⟩
    rw [retainedAt, Trie.get] at atPath
    rw [← retainMatches_eq_filterSelects wellFormed (free topic obj look)] at selected
    cases reached : (mT.root.find? (split topic)).map Trie.value with
    | none => simp [reached, blank, NodeData.new] at atPath
    | some data =>
        rw [reached, Option.getD_some] at atPath
        refine ⟨data, ?_, atPath⟩
        cases topicLevels : split topic with
        | nil => exact absurd topicLevels (split_ne_nil topic)
        | cons key rest =>
            rw [topicLevels] at reached selected
            exact (Node.mem_retainVisited mT.wf).mpr ⟨reached, selected⟩

/-- A search returns the entries of the store that its filter selects, in some order. -/
theorem Retains.retainSearch_perm (retains : mT.Retains store) {filter : GoString}
    (wellFormed : WellFormedFilter filter) {now : Time}
    (free : ∀ topic obj, store.lookup topic = some obj → WildcardFree topic)
    (alive : ∀ topic obj, store.lookup topic = some obj →
      (obj.packetAt now).expired now = false) :
    (mT.retainSearch filter now).2.Perm (store.select filter now) := by
  have met := retains.mem_heldAt wellFormed free
  have metAlive : ∀ path obj, (path, obj) ∈ Node.heldAt (Node.retainVisited filter mT.root) →
      (obj.packetAt now).expired now = false := by
    intro path obj member
    rcases (met path obj).mp member with ⟨topic, _, look, _⟩
    exact alive topic obj look
  have same : (Node.heldAt (Node.retainVisited filter mT.root)).Perm (store.chosen filter) := by
    apply (List.perm_ext_iff_of_nodup
      (Node.nodup_heldAt (Node.nodup_retainVisited mT.wf)) (store.nodup_chosen filter)).mpr
    rintro ⟨path, obj⟩
    rw [met, Store.mem_chosen]
  change (Node.retainSearch mT.root filter now).2.Perm _
  rw [Node.retainSearch_snd, Node.livePackets_eq_of_alive metAlive, Store.select_eq]
  exact same.map _

end Retains

/-- After every history of operations, in which nothing is retained for a topic with wildcard
characters and nothing has expired when the time is asked for, the trie retains exactly the
entries of the flat store, and a search with a well-formed filter returns exactly the entries
whose topic the filter selects, each once. -/
theorem run_refines_store (mode : Bool) (ops : List Op)
    (free : ∀ obj, .retain obj ∈ ops → WildcardFree obj.topic)
    (lasting : ∀ obj, .retain obj ∈ ops → ∀ op ∈ ops, ∀ now, op.now? = some now →
      (obj.packetAt now).expired now = false) :
    let mT := ((empty mode).run ops).1
    let store := Store.run ∅ ops
    (∀ path obj, mT.retainedAt path = some obj ↔
        ∃ topic, split topic = path ∧ store.lookup topic = some obj) ∧
      ∀ filter, WellFormedFilter filter → ∀ now,
        (∀ obj, .retain obj ∈ ops → (obj.packetAt now).expired now = false) →
          (mT.retainSearch filter now).2.Perm (store.select filter now) := by
  intro mT store
  have retains : mT.Retains store := retains_run mode lasting
  refine ⟨retains, ?_⟩
  intro filter wellFormed now alive
  apply retains.retainSearch_perm wellFormed
  · intro topic obj look
    rcases Store.from_run ops topic obj look with ⟨member, rfl⟩
    exact free obj member
  · intro topic obj look
    exact alive obj (Store.from_run ops topic obj look).1

/-- A subscription, two messages for one topic and one for another, and a search. -/
def sampleOps : List Op :=
  [.subscribe (ascii "a/#") 5 ⟨0, 0x01, 0⟩ 0, .retain (.publish (retainedSample (ascii "a/b"))),
    .retain (.publish { retainedSample (ascii "a/b") with payload := [0x32] }),
    .retain (.publish (retainedSample (ascii "a"))), .retained (ascii "#") 0]

/-- The last message of each topic is found. -/
theorem run_refines_store_sample :
    (((empty false).run sampleOps).1.retainSearch (ascii "a/#") 0).2.Perm
      [retainedSample (ascii "a"), { retainedSample (ascii "a/b") with payload := [0x32] }] := by
  have lasting : ∀ obj, .retain obj ∈ sampleOps → ∀ now, (obj.packetAt now).expired now = false := by
    intro obj member now
    simp only [sampleOps, List.mem_cons, List.not_mem_nil, reduceCtorEq, Op.retain.injEq, or_false,
      false_or] at member
    rcases member with rfl | rfl | rfl <;> rfl
  have free : ∀ obj, .retain obj ∈ sampleOps → WildcardFree obj.topic := by
    intro obj member
    simp only [sampleOps, List.mem_cons, List.not_mem_nil, reduceCtorEq, Op.retain.injEq, or_false,
      false_or] at member
    rcases member with rfl | rfl | rfl <;> decide
  exact (run_refines_store false sampleOps free fun obj member _ _ now _ =>
    lasting obj member now).2 (ascii "a/#") (by decide) 0 fun obj member => lasting obj member 0

end Provider

end VolantMQ.Topics
