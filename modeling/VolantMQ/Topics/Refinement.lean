import VolantMQ.Topics.Search

/-!
# The trie refines the flat table

The subscriptions a provider holds are read off its trie by path. Every operation changes
this reading exactly as the same operation changes the flat table, and reports the same; a
search then yields the deliveries that the table owes.
-/

namespace VolantMQ.Topics

open Lib Packet

namespace Provider

/-- The value of a node that does not exist. -/
def blank (mT : Provider) : NodeData := NodeData.new mT.allowOverlapping

/-- The subscriptions filed at a path. -/
def subsAt (mT : Provider) (path : List Level) : SubscribedEntries :=
  (mT.root.get mT.blank path).subs

/-- The parameters the trie holds for a filter and a subscriber. -/
def params (mT : Provider) (filter : GoString) (sub : Hash) : Option SubscriptionParams :=
  ((mT.subsAt (split filter)).lookup sub).map SubscribedEntry.p

/-- The trie and the table hold the same subscriptions. -/
def Represents (mT : Provider) (table : Table) : Prop :=
  ∀ filter sub, mT.params filter sub = table.lookup (filter, sub)

theorem subs_of_isBlank {overlap : Bool} (data : NodeData) (dead : data.isBlank = true) :
    data.subs = (NodeData.new overlap).subs := by
  simp only [NodeData.isBlank, Bool.and_eq_true, List.isEmpty_iff] at dead
  exact AList.ext dead.1

theorem subsAt_insertAt (mT : Provider) (levels : List Level) (assign : NodeData → NodeData)
    (keeps : ∀ data, data.Ok mT.allowOverlapping → (assign data).Ok mT.allowOverlapping)
    (path : List Level) :
    (mT.insertAt levels assign keeps).subsAt path =
      if path = levels then (assign (mT.root.get mT.blank levels)).subs else mT.subsAt path := by
  simp only [subsAt, insertAt, Node.leafInsertNode, blank, Trie.get_insertWith]
  split <;> rfl

theorem subsAt_cleanUpAt (mT : Provider) {levels : List Level} (assign : NodeData → NodeData)
    (keeps : ∀ data, data.Ok mT.allowOverlapping → (assign data).Ok mT.allowOverlapping)
    (present : (mT.root.find? levels).isSome) (path : List Level) :
    (mT.cleanUpAt levels assign keeps).subsAt path =
      if path = levels then (assign (mT.root.get mT.blank levels)).subs else mT.subsAt path :=
  Trie.observe_get_pruneWith subs_of_isBlank assign mT.wf present path

theorem subsAt_retainSearch (mT : Provider) (filter : GoString) (now : Time) (path : List Level) :
    (mT.retainSearch filter now).1.subsAt path = mT.subsAt path := by
  have pointwise := (Node.harmless_retainSearch now filter mT.root mT.wf).2 path
  simp only [subsAt, blank, Provider.retainSearch, Trie.get]
  generalize (mT.root.find? path).map Trie.value = before at pointwise ⊢
  generalize ((Node.retainSearch mT.root filter now).1.find? path).map Trie.value = after
    at pointwise ⊢
  cases pointwise with
  | none => rfl
  | some expires => exact expires.subs

/-- A node that does not exist holds no subscriptions. -/
theorem subsAt_of_missing {mT : Provider} {path : List Level} (missing : mT.root.find? path = none) :
    mT.subsAt path = ∅ := by
  simp [subsAt, Trie.get, missing, blank, NodeData.new]

theorem subsAt_retainInsert (mT : Provider) (topic : GoString) (obj : RetainObject)
    (path : List Level) : (mT.retainInsert topic obj).subsAt path = mT.subsAt path := by
  rw [retainInsert, subsAt_insertAt]
  split
  · rename_i same
    simp [same, subsAt]
  · rfl

theorem subsAt_retainRemove (mT : Provider) (topic : GoString) (path : List Level) :
    (mT.retainRemove topic).1.subsAt path = mT.subsAt path := by
  unfold retainRemove
  cases found : Node.leafSearchNode mT.root (split topic) with
  | none => rfl
  | some leaf =>
      have present : (mT.root.find? (split topic)).isSome := by
        rw [Node.leafSearchNode] at found
        simp [found]
      rw [subsAt_cleanUpAt mT _ _ present]
      split
      · rename_i same
        simp [same, subsAt]
      · rfl

/-- Retaining a message changes no subscription. -/
theorem subsAt_retain (mT : Provider) (obj : RetainObject) (path : List Level) :
    (mT.retain obj).subsAt path = mT.subsAt path := by
  cases obj with
  | dynamic value => exact subsAt_retainInsert mT _ _ path
  | publish packet =>
      simp only [retain]
      split <;> split <;> simp only [subsAt_retainInsert, subsAt_retainRemove]

theorem lookup_putSubscriber (sub : Hash) (p : SubscriptionParams) (data : NodeData)
    (other : Hash) :
    ((putSubscriber sub p data).subs.lookup other).map SubscribedEntry.p =
      if other = sub then some p else (data.subs.lookup other).map SubscribedEntry.p := by
  unfold putSubscriber
  by_cases same : other = sub
  · subst other
    cases data.subs.lookup sub <;> simp
  · cases data.subs.lookup sub <;> simp [same, AList.lookup_insert_ne same]

theorem lookup_dropSubscriber (sub : Hash) (data : NodeData) (other : Hash) :
    ((dropSubscriber (some sub) data).subs.lookup other).map SubscribedEntry.p =
      if other = sub then none else (data.subs.lookup other).map SubscribedEntry.p := by
  by_cases same : other = sub
  · subst other
    simp [dropSubscriber]
  · simp [dropSubscriber, same, AList.lookup_erase_ne same]

/-- An update of the subscriptions at one filter leaves every other filter alone. -/
theorem params_of_update {mT other : Provider} {filter : GoString} {subs : SubscribedEntries}
    (update : ∀ path, other.subsAt path = if path = split filter then subs else mT.subsAt path)
    (otherFilter : GoString) (sub : Hash) :
    other.params otherFilter sub =
      if otherFilter = filter then (subs.lookup sub).map SubscribedEntry.p
      else mT.params otherFilter sub := by
  rw [params, update]
  by_cases same : otherFilter = filter
  · simp [same]
  · rw [if_neg (split_injective.ne same), if_neg same]
    rfl

theorem params_subscriptionInsert (mT : Provider) (filter : GoString) (sub : Hash)
    (p : SubscriptionParams) (otherFilter : GoString) (other : Hash) :
    (mT.subscriptionInsert filter sub p).1.params otherFilter other =
      if otherFilter = filter ∧ other = sub then some p else mT.params otherFilter other := by
  rw [subscriptionInsert, params_of_update (subsAt_insertAt mT _ _ _)]
  by_cases sameFilter : otherFilter = filter
  · subst otherFilter
    rw [if_pos rfl, lookup_putSubscriber]
    by_cases sameSub : other = sub
    · rw [if_pos sameSub, if_pos ⟨rfl, sameSub⟩]
    · rw [if_neg sameSub, if_neg fun both => sameSub both.2]
      rfl
  · rw [if_neg sameFilter, if_neg fun both => sameFilter both.1]

theorem params_retainSearch (mT : Provider) (filter : GoString) (now : Time) :
    (mT.retainSearch filter now).1.params = mT.params := by
  funext otherFilter other
  rw [params, params, subsAt_retainSearch]

/-- `Subscribe` sets the subscription of its subscriber at its filter and no other. -/
theorem params_subscribe (mT : Provider) (filter : GoString) (s : Hash) (p : SubscriptionParams)
    (now : Time) (otherFilter : GoString) (other : Hash) :
    (mT.subscribe filter s p now).1.params otherFilter other =
      if otherFilter = filter ∧ other = s then
        some { p with Granted := SubscriptionOptions.qos p.Ops }
      else mT.params otherFilter other := by
  have inserted := params_subscriptionInsert mT filter s
    { p with Granted := SubscriptionOptions.qos p.Ops } otherFilter other
  simp only [subscribe]
  split
  · rw [params_retainSearch]
    exact inserted
  · exact inserted

/-- `UnSubscribe` takes away the subscription of its subscriber at its filter and no other, and
fails if there is none. -/
theorem params_unSubscribe (mT : Provider) (filter : GoString) (sub : Hash) :
    (∀ otherFilter other, (mT.unSubscribe filter (some sub)).1.params otherFilter other =
        if otherFilter = filter ∧ other = sub then none else mT.params otherFilter other) ∧
      (mT.unSubscribe filter (some sub)).2 =
        if (mT.params filter sub).isSome then none else some .ErrNotFound := by
  rw [unSubscribe, subscriptionRemove]
  cases found : Node.leafSearchNode mT.root (split filter) with
  | none =>
      -- the node is missing, so there is no such subscription and taking it away changes nothing
      have absent : mT.params filter sub = none := by
        rw [params, subsAt_of_missing found]
        simp
      constructor
      · intro otherFilter other
        by_cases same : otherFilter = filter ∧ other = sub
        · rw [if_pos same, same.1, same.2]
          exact absent
        · rw [if_neg same]
      · simp [absent]
  | some leaf =>
      rw [Node.leafSearchNode] at found
      have present : (mT.root.find? (split filter)).isSome := by simp [found]
      constructor
      · intro otherFilter other
        rw [params_of_update (subsAt_cleanUpAt mT _ _ present)]
        by_cases sameFilter : otherFilter = filter
        · subst otherFilter
          rw [if_pos rfl, lookup_dropSubscriber]
          by_cases sameSub : other = sub
          · rw [if_pos sameSub, if_pos ⟨rfl, sameSub⟩]
          · rw [if_neg sameSub, if_neg fun both => sameSub both.2]
            rfl
        · rw [if_neg sameFilter, if_neg fun both => sameFilter both.1]
      · have leafSubs : leaf.value.subs = mT.subsAt (split filter) := by
          simp [subsAt, Trie.get, found]
        rw [params, Option.isSome_map, ← leafSubs]

section Steps

variable {mT : Provider} {table : Table}

theorem Represents.congr (represents : mT.Represents table) {other : Provider}
    (same : ∀ path, other.subsAt path = mT.subsAt path) : other.Represents table := by
  intro filter sub
  rw [← represents filter sub, params, params, same]

theorem represents_retainSearch (represents : mT.Represents table) (filter : GoString)
    (now : Time) : (mT.retainSearch filter now).1.Represents table :=
  represents.congr (subsAt_retainSearch mT filter now)

/-- A provider that has got one more subscription. -/
theorem Represents.insert (represents : mT.Represents table) {next : Provider} {filter : GoString}
    {s : Hash} {p : SubscriptionParams}
    (update : ∀ otherFilter other, next.params otherFilter other =
      if otherFilter = filter ∧ other = s then some p else mT.params otherFilter other) :
    next.Represents (table.insert (filter, s) p) := by
  intro otherFilter other
  rw [update, represents otherFilter other]
  by_cases same : otherFilter = filter ∧ other = s
  · rw [if_pos same, same.1, same.2, AList.lookup_insert]
  · have distinct : (otherFilter, other) ≠ (filter, s) := by simpa using same
    rw [if_neg same, AList.lookup_insert_ne distinct]

theorem existed_subscribe (mT : Provider) (filter : GoString) (s : Hash) (p : SubscriptionParams)
    (now : Time) : (mT.subscribe filter s p now).2.existed = (mT.params filter s).isSome := by
  rw [params, Option.isSome_map]
  simp only [subscribe]
  split <;> rfl

theorem represents_subscribe (represents : mT.Represents table) (filter : GoString) (s : Hash)
    (p : SubscriptionParams) (now : Time) :
    (mT.subscribe filter s p now).1.Represents
        (table.insert (filter, s) { p with Granted := SubscriptionOptions.qos p.Ops }) ∧
      (mT.subscribe filter s p now).2.existed = (table.lookup (filter, s)).isSome := by
  refine ⟨represents.insert (params_subscribe mT filter s p now), ?_⟩
  rw [existed_subscribe, represents filter s]

theorem represents_unSubscribe (represents : mT.Represents table) (filter : GoString)
    (sub : Hash) :
    (mT.unSubscribe filter (some sub)).1.Represents (table.erase (filter, sub)) ∧
      (mT.unSubscribe filter (some sub)).2 =
        if (table.lookup (filter, sub)).isSome then none else some .ErrNotFound := by
  have removed := params_unSubscribe mT filter sub
  refine ⟨?_, by rw [removed.2, represents filter sub]⟩
  intro otherFilter other
  rw [removed.1, represents otherFilter other]
  by_cases same : otherFilter = filter ∧ other = sub
  · rw [if_pos same, same.1, same.2, AList.lookup_erase]
  · have distinct : (otherFilter, other) ≠ (filter, sub) := by simpa using same
    rw [if_neg same, AList.lookup_erase_ne distinct]

theorem represents_unSubscribeAll (represents : mT.Represents table) (filter : GoString) :
    (mT.unSubscribe filter none).1.Represents (table.eraseFilter filter) := by
  intro otherFilter other
  rw [Table.lookup_eraseFilter, ← represents otherFilter other, unSubscribe, subscriptionRemove]
  cases found : Node.leafSearchNode mT.root (split filter) with
  | none =>
      by_cases same : otherFilter = filter
      · subst otherFilter
        rw [if_pos rfl, params, subsAt_of_missing found]
        simp
      · rw [if_neg same]
  | some leaf =>
      rw [Node.leafSearchNode] at found
      have present : (mT.root.find? (split filter)).isSome := by simp [found]
      rw [params_of_update (subsAt_cleanUpAt mT _ _ present)]
      by_cases same : otherFilter = filter
      · simp [same, dropSubscriber]
      · rw [if_neg same, if_neg same]

/-- One operation keeps the trie and the table in step and reports what the table reports. -/
theorem represents_step (represents : mT.Represents table) (op : Op) :
    (mT.step op).1.Represents (table.step op).1 ∧ (mT.step op).2 = (table.step op).2 := by
  cases op with
  | subscribe filter s p now =>
      have spec := represents_subscribe represents filter s p now
      exact ⟨spec.1, congrArg Report.existed spec.2⟩
  | unSubscribe filter s =>
      have spec := represents_unSubscribe represents filter s
      exact ⟨spec.1, congrArg Report.error spec.2⟩
  | unSubscribeAll filter => exact ⟨represents_unSubscribeAll represents filter, rfl⟩
  | retain obj => exact ⟨represents.congr (subsAt_retain mT obj), rfl⟩
  | retained filter now => exact ⟨represents_retainSearch represents filter now, rfl⟩

theorem represents_run (represents : mT.Represents table) (ops : List Op) :
    (mT.run ops).1.Represents (table.run ops).1 ∧ (mT.run ops).2 = (table.run ops).2 := by
  induction ops generalizing mT table with
  | nil => exact ⟨represents, rfl⟩
  | cons op ops ih =>
      have here := represents_step represents op
      have rest := ih here.1
      exact ⟨rest.1, by simp only [run, Table.run, here.2, rest.2]⟩

end Steps

theorem represents_empty (allowOverlapping : Bool) : (empty allowOverlapping).Represents ∅ := by
  intro filter sub
  simp [params, subsAt, empty, blank, Trie.get_leaf, NodeData.new]

theorem allowOverlapping_step (mT : Provider) (op : Op) :
    (mT.step op).1.allowOverlapping = mT.allowOverlapping := by
  cases op with
  | subscribe filter s p now =>
      simp only [step, subscribe]
      split <;> rfl
  | unSubscribe filter s =>
      simp only [step, unSubscribe, subscriptionRemove]
      split <;> rfl
  | unSubscribeAll filter =>
      simp only [step, unSubscribe, subscriptionRemove]
      split <;> rfl
  | retain obj =>
      have removed : ∀ topic, (mT.retainRemove topic).1.allowOverlapping = mT.allowOverlapping := by
        intro topic
        simp only [retainRemove]
        split <;> rfl
      cases obj with
      | dynamic value => rfl
      | publish packet =>
          simp only [step, retain]
          split <;> split <;> simp [retainInsert, insertAt, removed]
  | retained filter now => rfl

theorem allowOverlapping_run (mT : Provider) (ops : List Op) :
    (mT.run ops).1.allowOverlapping = mT.allowOverlapping := by
  induction ops generalizing mT with
  | nil => rfl
  | cons op ops ih => exact (ih _).trans (allowOverlapping_step mT op)

end Provider

namespace NodeData

/-- All entries of a search result in one list. -/
def flat (p : PublishEntries) : List PublishEntry := p.entries.flatMap Sigma.snd

/-- What one subscription of a node is owed. -/
def owed (publishID : Hash) (sub : Σ _ : Hash, SubscribedEntry) : Option PublishEntry :=
  if mayReceive publishID sub.1 sub.2 then some (acquire sub.2) else none

theorem flat_insert_of_none {p : PublishEntries} {id : Hash} (absent : p.lookup id = none)
    (entry : PublishEntry) : (flat (p.insert id [entry])).Perm (flat p ++ [entry]) := by
  rw [flat, AList.entries_insert_of_notMem (AList.lookup_eq_none.mp absent), List.flatMap_cons]
  exact List.perm_append_comm

theorem flat_insert_of_some {p : PublishEntries} {id : Hash} {entries : List PublishEntry}
    (present : p.lookup id = some entries) (entry : PublishEntry) :
    (flat (p.insert id (entries ++ [entry]))).Perm (flat p ++ [entry]) := by
  have key : id ∈ p.entries.keys := AList.lookup_isSome.mp (by simp [present])
  rcases List.exists_of_kerase key with ⟨found, front, back, notFront, whole, erased⟩
  have same : found = entries := by
    have member : (⟨id, found⟩ : Σ _ : Hash, List PublishEntry) ∈ p.entries := by simp [whole]
    rw [← AList.mem_lookup_iff, present, Option.mem_some_iff] at member
    exact member.symm
  subst found
  rw [flat, flat, AList.entries_insert, erased, whole]
  simp only [List.flatMap_cons, List.flatMap_append, List.append_assoc]
  -- the new entry and the group of `id` move behind the groups in front of it
  calc entries ++ ([entry] ++ (front.flatMap Sigma.snd ++ back.flatMap Sigma.snd))
      = (entries ++ [entry]) ++ (front.flatMap Sigma.snd ++ back.flatMap Sigma.snd) := by simp
    _ |>.Perm ((front.flatMap Sigma.snd ++ back.flatMap Sigma.snd) ++ (entries ++ [entry])) :=
        List.perm_append_comm
    _ = front.flatMap Sigma.snd ++ ((back.flatMap Sigma.snd ++ entries) ++ [entry]) := by simp
    _ |>.Perm (front.flatMap Sigma.snd ++ ((entries ++ back.flatMap Sigma.snd) ++ [entry])) :=
        ((List.perm_append_comm).append_right [entry]).append_left _
    _ = front.flatMap Sigma.snd ++ (entries ++ (back.flatMap Sigma.snd ++ [entry])) := by simp

theorem flat_addNonOverlapping (publishID : Hash) (p : PublishEntries)
    (sub : Σ _ : Hash, SubscribedEntry) :
    (flat (addNonOverlapping publishID p sub)).Perm (flat p ++ (owed publishID sub).toList) := by
  simp only [addNonOverlapping, owed]
  split
  · cases present : p.lookup sub.1 with
    | none => exact flat_insert_of_none present _
    | some entries => exact flat_insert_of_some present _
  · simp

theorem flat_foldl_addNonOverlapping (publishID : Hash) (p : PublishEntries)
    (subs : List (Σ _ : Hash, SubscribedEntry)) :
    (flat (subs.foldl (addNonOverlapping publishID) p)).Perm
      (flat p ++ subs.filterMap (owed publishID)) := by
  induction subs generalizing p with
  | nil => simp
  | cons sub subs ih =>
      have first := (flat_addNonOverlapping publishID p sub).append_right
        (subs.filterMap (owed publishID))
      refine (ih _).trans (first.trans ?_)
      cases entry : owed publishID sub <;> simp [entry]

/-- A search result files every entry under its own subscriber. -/
def Filed (p : PublishEntries) : Prop :=
  ∀ id entries, p.lookup id = some entries → ∀ entry ∈ entries, entry.s = id

theorem filed_addNonOverlapping {publishID : Hash} {p : PublishEntries} (filed : Filed p)
    {sub : Σ _ : Hash, SubscribedEntry} (own : sub.2.s = sub.1) :
    Filed (addNonOverlapping publishID p sub) := by
  simp only [addNonOverlapping]
  split
  · have inserted : ∀ entries : List PublishEntry, (∀ entry ∈ entries, entry.s = sub.1) →
        Filed (p.insert sub.1 (entries ++ [acquire sub.2])) := by
      intro entries old id found look entry member
      by_cases same : id = sub.1
      · subst id
        rw [AList.lookup_insert, Option.some.injEq] at look
        rw [← look, List.mem_append, List.mem_singleton] at member
        rcases member with before | rfl
        · exact old entry before
        · exact own
      · rw [AList.lookup_insert_ne same] at look
        exact filed id found look entry member
    cases present : p.lookup sub.1 with
    | none => exact inserted [] (by simp)
    | some entries => exact inserted entries (filed _ _ present)
  · exact filed

theorem filed_nonOverlappingSubscribers {publishID : Hash} {p : PublishEntries} (filed : Filed p)
    {data : NodeData} (own : ∀ sub entry, data.subs.lookup sub = some entry → entry.s = sub) :
    Filed (data.nonOverlappingSubscribers publishID p) := by
  have ownEntries : ∀ sub ∈ data.subs.entries, sub.2.s = sub.1 := fun sub member =>
    own sub.1 sub.2 (AList.mem_lookup_iff.mpr member)
  unfold nonOverlappingSubscribers
  generalize data.subs.entries = subs at ownEntries
  induction subs generalizing p with
  | nil => exact filed
  | cons sub subs ih =>
      exact ih (filed_addNonOverlapping filed (ownEntries sub (by simp)))
        (fun other member => ownEntries other (by simp [member]))

end NodeData

namespace Node

theorem flat_collect (publishID : Hash) (entries : List (List Level × NodeData))
    (mode : ∀ entry ∈ entries, entry.2.overlap = false) (p : PublishEntries) :
    (NodeData.flat (collect publishID entries p)).Perm (NodeData.flat p ++
      entries.flatMap fun entry => entry.2.subs.entries.filterMap (NodeData.owed publishID)) := by
  induction entries generalizing p with
  | nil => simp
  | cons entry entries ih =>
      have single := mode entry (by simp)
      have first := NodeData.flat_foldl_addNonOverlapping publishID p entry.2.subs.entries
      have rest := ih (fun other member => mode other (by simp [member]))
        (entry.2.getSubscribers publishID p)
      refine rest.trans ?_
      rw [NodeData.getSubscribers, single, if_neg (by decide), List.flatMap_cons,
        ← List.append_assoc]
      exact first.append_right _

theorem filed_collect (publishID : Hash) (entries : List (List Level × NodeData))
    (ok : ∀ entry ∈ entries, entry.2.Ok false) {p : PublishEntries} (filed : NodeData.Filed p) :
    NodeData.Filed (collect publishID entries p) := by
  induction entries generalizing p with
  | nil => exact filed
  | cons entry entries ih =>
      have here := ok entry (by simp)
      have added : NodeData.Filed (entry.2.getSubscribers publishID p) := by
        rw [NodeData.getSubscribers, here.mode, if_neg (by decide)]
        exact NodeData.filed_nonOverlappingSubscribers filed here.filed
      exact ih (fun other member => ok other (by simp [member])) added

/-- The subscriptions at the visited nodes, each under its path and subscriber. -/
def keyed (entries : List (List Level × NodeData)) :
    List ((List Level × Hash) × SubscriptionParams) :=
  entries.flatMap fun entry =>
    entry.2.subs.entries.map fun sub => ((entry.1, sub.1), sub.2.p)

theorem mem_keyed {entries : List (List Level × NodeData)} {path : List Level} {s : Hash}
    {p : SubscriptionParams} :
    ((path, s), p) ∈ keyed entries ↔
      ∃ data, (path, data) ∈ entries ∧ (data.subs.lookup s).map SubscribedEntry.p = some p := by
  simp only [keyed, List.mem_flatMap, List.mem_map, Prod.mk.injEq, Option.map_eq_some_iff]
  constructor
  · rintro ⟨⟨path, data⟩, visit, sub, member, ⟨rfl, rfl⟩, rfl⟩
    exact ⟨data, visit, sub.2, AList.mem_lookup_iff.mpr member, rfl⟩
  · rintro ⟨data, visit, entry, look, rfl⟩
    exact ⟨(path, data), visit, ⟨s, entry⟩, AList.mem_lookup_iff.mp look, ⟨rfl, rfl⟩, rfl⟩

theorem nodup_keyed {entries : List (List Level × NodeData)}
    (paths : (entries.map Prod.fst).Nodup) : (keyed entries).Nodup := by
  refine List.nodup_flatMap.mpr ⟨?_, ?_⟩
  · intro entry _
    apply List.Nodup.of_map Prod.fst
    have keys : (entry.2.subs.entries.map Sigma.fst).Nodup := entry.2.subs.nodupKeys
    have paired := keys.map (f := fun s => (entry.1, s))
      (fun left right equation => by simpa using equation)
    simpa [List.map_map, Function.comp_def] using paired
  · refine (List.pairwise_map.mp paths).imp ?_
    intro left right distinct
    apply List.disjoint_left.mpr
    intro key first second
    rw [List.mem_map] at first second
    rcases first with ⟨sub, _, rfl⟩
    rcases second with ⟨other, _, equation⟩
    simp only [Prod.mk.injEq] at equation
    exact distinct equation.1.1.symm

end Node

/-- The delivery owed to one matching subscription. -/
def Table.owedTo (publishID : Hash) (s : Hash) (p : SubscriptionParams) : Option PublishEntry :=
  if !(SubscriptionOptions.nl p.Ops && s == publishID) then
    some ⟨s, p.Ops, p.Granted, if 0 < p.ID then [p.ID] else []⟩
  else none

namespace Table

/-- The subscriptions whose filter matches a topic, under path and subscriber. -/
def matching (table : Table) (topic : GoString) :
    List ((List Level × Hash) × SubscriptionParams) :=
  (table.entries.filter fun entry => filterMatches entry.1.1 topic).map fun entry =>
    ((split entry.1.1, entry.1.2), entry.2)

theorem deliveries_eq (table : Table) (topic : GoString) (publishID : Hash) :
    table.deliveries topic publishID =
      (table.matching topic).filterMap fun key => owedTo publishID key.1.2 key.2 := by
  simp only [deliveries, matching, List.filterMap_map]
  rw [List.filterMap_filter]
  congr 1
  funext entry
  simp only [deliver, owedTo, Function.comp_apply, Bool.and_eq_true]
  split <;> simp_all

theorem nodup_matching (table : Table) (topic : GoString) : (table.matching topic).Nodup := by
  have keys : (table.entries.map Sigma.fst).Nodup := table.nodupKeys
  apply List.Nodup.of_map fun key => key.1
  have injective : Function.Injective fun key : GoString × Hash => (split key.1, key.2) := by
    rintro ⟨left, leftSub⟩ ⟨right, rightSub⟩ equation
    simp only [Prod.mk.injEq] at equation
    rw [split_injective equation.1, equation.2]
  have sub : ((table.entries.filter fun entry => filterMatches entry.1.1 topic).map
      Sigma.fst).Nodup := keys.sublist (List.filter_sublist.map _)
  simpa [matching, List.map_map, Function.comp_def] using sub.map injective

theorem mem_matching {table : Table} {topic : GoString} {path : List Level} {s : Hash}
    {p : SubscriptionParams} :
    ((path, s), p) ∈ table.matching topic ↔ ∃ filter, split filter = path ∧
      table.lookup (filter, s) = some p ∧ filterMatches filter topic = true := by
  simp only [matching, List.mem_map, List.mem_filter, Prod.mk.injEq]
  constructor
  · rintro ⟨⟨⟨filter, sub⟩, params⟩, ⟨member, matched⟩, ⟨rfl, rfl⟩, rfl⟩
    exact ⟨filter, rfl, mem_entries_iff.mp member, matched⟩
  · rintro ⟨filter, rfl, look, matched⟩
    exact ⟨⟨(filter, s), p⟩, ⟨mem_entries_iff.mpr look, matched⟩, ⟨rfl, rfl⟩, rfl⟩

end Table

/-- A level of a matching path is a wildcard or a level of the topic. -/
theorem level_of_matchLevels {path levels : List Level} (matched : matchLevels path levels = true) :
    ∀ level ∈ path, level = MWC ∨ level = SWC ∨ level ∈ levels := by
  induction path generalizing levels with
  | nil => simp
  | cons first rest ih =>
      intro level member
      cases levels with
      | nil =>
          simp only [matchLevels, Bool.and_eq_true, beq_iff_eq, List.isEmpty_iff] at matched
          rw [matched.1, matched.2, List.mem_singleton] at member
          exact .inl member
      | cons top levels =>
          simp only [matchLevels] at matched
          split at matched
          · rename_i isWildcard
            simp only [Bool.and_eq_true, List.isEmpty_iff] at matched
            rw [isWildcard, matched.1, List.mem_singleton] at member
            exact .inl member
          · simp only [Bool.and_eq_true, Bool.or_eq_true, beq_iff_eq] at matched
            rcases List.mem_cons.mp member with rfl | later
            · rcases matched.1 with single | literal
              · exact .inr (.inl single)
              · exact .inr (.inr (by simp [literal]))
            · rcases ih matched.2 level later with multi | single | old
              · exact .inl multi
              · exact .inr (.inl single)
              · exact .inr (.inr (by simp [old]))

/-- The path of a visited node is the path of some filter. -/
theorem exists_filter_of_pathMatches {path : List Level} {topic : GoString}
    (matched : pathMatches path (split topic) = true) : ∃ filter, split filter = path := by
  have levels : path ≠ [] ∧ ∀ level ∈ path, level = MWC ∨ level = SWC ∨ level ∈ split topic := by
    cases path with
    | nil => simp [pathMatches] at matched
    | cons first rest =>
        refine ⟨by simp, ?_⟩
        cases topicLevels : split topic with
        | nil => exact absurd topicLevels (split_ne_nil topic)
        | cons top levels =>
            rw [topicLevels] at matched
            simp only [pathMatches] at matched
            split at matched
            · simp only [Bool.and_eq_true, beq_iff_eq] at matched
              intro level member
              rcases List.mem_cons.mp member with rfl | later
              · exact .inr (.inr (by simp [matched.1]))
              · rcases level_of_matchLevels matched.2 level later with multi | single | old
                · exact .inl multi
                · exact .inr (.inl single)
                · exact .inr (.inr (by simp [old]))
            · exact level_of_matchLevels matched
  refine exists_split_eq levels.1 ?_
  intro level member
  rcases levels.2 level member with rfl | rfl | old
  · decide
  · decide
  · exact separator_notMem old

namespace Provider

section Search

variable {mT : Provider} {table : Table}

theorem ok_of_visited {topic : GoString} (free : WildcardFree topic)
    {entry : List Level × NodeData} (member : entry ∈ Node.searchVisited topic mT.root) :
    entry.2.Ok mT.allowOverlapping := by
  rcases entry with ⟨path, data⟩
  rw [Node.mem_searchVisited free] at member
  rcases Option.map_eq_some_iff.mp member.1 with ⟨found, reached, rfl⟩
  exact (mT.ok.find? reached).here

/-- The subscriptions at the visited nodes are the matching ones of the table. -/
theorem keyed_searchVisited (represents : mT.Represents table) {topic : GoString}
    (free : WildcardFree topic) :
    (Node.keyed (Node.searchVisited topic mT.root)).Perm (table.matching topic) := by
  refine (List.perm_ext_iff_of_nodup (Node.nodup_keyed (Node.nodup_searchVisited free _))
    (table.nodup_matching topic)).mpr ?_
  rintro ⟨⟨path, s⟩, p⟩
  rw [Node.mem_keyed, Table.mem_matching]
  constructor
  · rintro ⟨data, visit, held⟩
    rw [Node.mem_searchVisited free] at visit
    rcases exists_filter_of_pathMatches visit.2 with ⟨filter, rfl⟩
    refine ⟨filter, rfl, ?_, visit.2⟩
    rw [← represents filter s, params, subsAt, Trie.get, visit.1]
    exact held
  · rintro ⟨filter, rfl, look, matched⟩
    rw [← represents filter s, params] at look
    cases reached : mT.root.find? (split filter) with
    | none => simp [subsAt_of_missing reached] at look
    | some found =>
        refine ⟨found.value, ?_, ?_⟩
        · rw [Node.mem_searchVisited free, reached]
          exact ⟨rfl, matched⟩
        · simpa [subsAt, Trie.get, reached] using look

/-- A search yields what the table owes, in some order. -/
theorem subscriptionSearch_perm (represents : mT.Represents table)
    (mode : mT.allowOverlapping = false) {topic : GoString} (free : WildcardFree topic)
    (publishID : Hash) :
    (NodeData.flat (mT.subscriptionSearch topic publishID)).Perm
      (table.deliveries topic publishID) := by
  have ok : ∀ entry ∈ Node.searchVisited topic mT.root, entry.2.Ok false := fun entry member =>
    mode ▸ ok_of_visited free member
  have collected := Node.flat_collect publishID _ (fun entry member => (ok entry member).mode) ∅
  rw [← Node.subscriptionSearch_eq_collect] at collected
  refine collected.trans ?_
  have owedKeyed : ((Node.searchVisited topic mT.root).flatMap fun entry =>
      entry.2.subs.entries.filterMap (NodeData.owed publishID)) =
      (Node.keyed (Node.searchVisited topic mT.root)).filterMap fun key =>
        Table.owedTo publishID key.1.2 key.2 := by
    rw [Node.keyed, List.filterMap_flatMap]
    refine List.flatMap_congr ?_
    intro entry member
    rw [List.filterMap_map]
    refine List.filterMap_congr ?_
    intro sub subMember
    have own := (ok entry member).filed sub.1 sub.2 (AList.mem_lookup_iff.mpr subMember)
    simp only [NodeData.owed, NodeData.mayReceive, NodeData.acquire, Table.owedTo,
      Function.comp_apply, own, Bool.not_and, bne]
  rw [owedKeyed, Table.deliveries_eq]
  simpa [NodeData.flat] using (keyed_searchVisited represents free).filterMap _

theorem subscriptionSearch_filed (mode : mT.allowOverlapping = false) {topic : GoString}
    (free : WildcardFree topic) (publishID : Hash) :
    NodeData.Filed (mT.subscriptionSearch topic publishID) := by
  rw [subscriptionSearch, Node.subscriptionSearch_eq_collect]
  refine Node.filed_collect publishID _ ?_ (by simp [NodeData.Filed])
  intro entry member
  exact mode ▸ ok_of_visited free member

end Search

/-- Every history of operations leaves the trie with exactly the subscriptions of the flat
table and reports what the table reports, and a search for a topic without wildcard characters
then finds one entry for each subscription that has to receive the message, filed under its
subscriber, and nothing else. -/
theorem run_refines_table (ops : List Op) :
    let mT := (new.run ops).1
    let table := ((∅ : Table).run ops).1
    (new.run ops).2 = ((∅ : Table).run ops).2 ∧
      (∀ filter sub, mT.params filter sub = table.lookup (filter, sub)) ∧
      ∀ topic, WildcardFree topic → ∀ publishID,
        (NodeData.flat (mT.subscriptionSearch topic publishID)).Perm
            (table.deliveries topic publishID) ∧
          NodeData.Filed (mT.subscriptionSearch topic publishID) := by
  have run := represents_run (represents_empty false) ops
  have mode : (new.run ops).1.allowOverlapping = false := allowOverlapping_run new ops
  refine ⟨run.2, run.1, ?_⟩
  intro topic free publishID
  exact ⟨subscriptionSearch_perm run.1 mode free publishID,
    subscriptionSearch_filed mode free publishID⟩

/-- Two subscribers of one topic, one of them its publisher under No Local. -/
theorem run_refines_table_noLocal :
    let ops : List Op :=
      [.subscribe (ascii "a/+") 1 ⟨7, 0x01, 0⟩ 0, .subscribe (ascii "a/b") 2 ⟨0, 0x06, 0⟩ 0]
    WildcardFree (ascii "a/b") ∧
      (NodeData.flat ((new.run ops).1.subscriptionSearch (ascii "a/b") 2)).Perm
        [⟨1, 0x01, 1, [7]⟩] := by
  intro ops
  have free : WildcardFree (ascii "a/b") := by decide
  have search := ((run_refines_table ops).2.2 (ascii "a/b") free 2).1
  have owed : (((∅ : Table).run ops).1.deliveries (ascii "a/b") 2) = [⟨1, 0x01, 1, [7]⟩] := by
    decide +kernel
  exact ⟨free, owed ▸ search⟩

end Provider

end VolantMQ.Topics
