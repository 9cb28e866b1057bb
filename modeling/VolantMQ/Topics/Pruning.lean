import VolantMQ.Lib.Pruned
import VolantMQ.Lib.Run
import VolantMQ.Topics.Store

/-!
# Nodes that hold nothing

The loops at the end of `subscriptionRemove` and `retainRemove` remove the nodes that are left
without subscriptions, children and retained object, so that the size of the trie follows its
content. A retained search also takes something away, the objects that have expired, but it has no
such loop. This file shows that this is the only way in which empty nodes come about: the trie has
none as long as no search reads an expired object at a node that holds nothing else.
-/

namespace VolantMQ.Topics

open Lib Packet

namespace Node

/-- The change a search makes at the paths it selects. -/
def expireAt (now : Time) (selected : List Level → Bool) (path : List Level) (data : NodeData) :
    NodeData :=
  if selected path then data.dropExpired now else data

theorem allRetained_fst (now : Time) (n : Node) :
    (allRetained now n).1 = n.mapPath (expireAt now fun _ => true) := by
  rw [allRetained_eq, ← Trie.mapPath_const]
  rfl

theorem updateChildren_congr {root : Node} {first second : Level → Node → Node}
    (same : ∀ branch ∈ root.children, first branch.1 branch.2 = second branch.1 branch.2) :
    root.updateChildren first = root.updateChildren second := by
  cases root with
  | node data branches =>
      simp only [Trie.updateChildren, Trie.node.injEq, true_and]
      apply List.map_congr_left
      intro branch member
      rw [Sigma.map, Sigma.map, same branch member]

/-- The paths below the children that pass a test. -/
def childPaths (test : Level → Bool) (selected : List Level → Bool) : List Level → Bool
  | [] => false
  | key :: rest => test key && selected rest

/-- Searching the children that pass a test, where each search changes the selected paths. -/
theorem searchChildren_fst {now : Time} {search : Node → Node × List Publish}
    {selected : List Level → Bool}
    (spec : ∀ n, (search n).1 = n.mapPath (expireAt now selected)) (root : Node)
    (test : Level → Bool) :
    (searchChildren root test search).1 =
      root.mapPath (expireAt now (childPaths test selected)) := by
  have rootKept : ∀ n : Node, n.modifyValue (expireAt now (childPaths test selected) []) = n := by
    intro n
    cases n
    rfl
  rw [Trie.mapPath_eq, rootKept]
  apply updateChildren_congr
  intro branch _
  cases passes : test branch.1 with
  | true =>
      rw [if_pos rfl, spec]
      congr 1
      funext path data
      simp [expireAt, childPaths, passes]
  | false =>
      rw [if_neg (by simp)]
      refine (Trie.mapPath_id branch.2).symm.trans ?_
      congr 1
      funext path data
      simp [expireAt, childPaths, passes]

theorem searchChild_fst (root : Node) (level : Level) (search : Node → Node × List Publish) :
    (searchChild root level search).1 =
      (searchChildren root (fun key => decide (key = level)) search).1 := by
  simp only [searchChild, searchChildren, withChild]
  cases found : root.child? level with
  | some n => simp
  | none =>
      have absent : ∀ branch ∈ root.children, branch.1 ≠ level := by
        rintro branch member rfl
        rw [Trie.child?, List.dlookup_eq_none] at found
        exact found (List.mem_keys_of_mem member)
      have kept : root.updateChildren (fun _ child => child) = root := by
        cases root with
        | node data branches =>
            rw [Trie.updateChildren]
            exact congrArg (Trie.node data) (List.map_id branches)
      refine kept.symm.trans (updateChildren_congr ?_)
      intro branch member
      simp [absent branch member]

theorem retainRecurseSearch_fst (now : Time) (levels : List Level) (root : Node) :
    (retainRecurseSearch now levels root).1 =
      root.mapPath (expireAt now (retainSelects levels)) := by
  induction levels generalizing root with
  | nil =>
      have below := searchChildren_fst (fun n => allRetained_fst now n) (root.getRetained now).1
        fun key => decide (key = MWC)
      rw [retainRecurseSearch, searchChild_fst, below, getRetained, Trie.mapPath_eq,
        Trie.mapPath_eq]
      cases root with
      | node data branches =>
          simp only [Trie.modifyValue, Trie.updateChildren, Trie.node.injEq]
          constructor
          · rfl
          · apply List.map_congr_left
            intro branch _
            simp only [Sigma.map, Sigma.mk.injEq, id, heq_eq_eq, true_and]
            congr 1
            funext path data
            simp [expireAt, childPaths, retainSelects, beq_eq_decide]
  | cons level levels ih =>
      rw [retainRecurseSearch]
      split
      · rename_i multi
        rw [allRetained_fst]
        congr 1
        funext path data
        cases path <;> simp [expireAt, retainSelects, multi]
      · rename_i notMulti
        split
        · rename_i single
          rw [searchChildren_fst ih]
          congr 1
          funext path data
          cases path <;>
            simp [expireAt, childPaths, retainSelects, single, show SWC ≠ MWC by decide]
        · rename_i notSingle
          rw [searchChild_fst, searchChildren_fst ih]
          congr 1
          funext path data
          cases path with
          | nil => simp [expireAt, childPaths, retainSelects, notMulti]
          | cons key rest =>
              have literal : (decide (key = level) : Bool) = (level == key) := by
                rw [beq_eq_decide, decide_eq_decide]
                exact eq_comm
              simp [expireAt, childPaths, retainSelects, notMulti, notSingle, literal]

/-- A search takes the expired objects from the nodes it reads and changes nothing else. -/
theorem retainSearch_fst (root : Node) (filter : GoString) (now : Time) :
    (retainSearch root filter now).1 =
      root.mapPath (expireAt now (retainMatches (split filter))) := by
  have direct : ∀ level levels, level ≠ MWC → (retainRecurseSearch now (level :: levels) root).1 =
      root.mapPath (expireAt now (retainMatches (level :: levels))) := by
    intro level levels notMulti
    rw [retainRecurseSearch_fst]
    congr 1
    funext path data
    cases path <;> simp [expireAt, retainMatches, retainSelects, notMulti]
  unfold retainSearch
  cases filterLevels : split filter with
  | nil => exact absurd filterLevels (split_ne_nil filter)
  | cons level levels =>
      simp only
      split
      · rename_i multi
        rw [searchChildren_fst (fun n => allRetained_fst now n)]
        congr 1
        funext path data
        cases path <;> simp [expireAt, childPaths, retainMatches, multi]
      · rename_i notMulti
        split
        · rename_i system
          have notSingle : level ≠ SWC := (isSystem_ne_wildcard system.1).2
          have recursive := direct level levels notMulti
          rwa [retainRecurseSearch, if_neg notMulti, if_neg notSingle] at recursive
        · exact direct level levels notMulti

end Node

namespace Provider

/-- Every node below the root has a subscription, a child or a retained object. -/
def NoDeadNodes (mT : Provider) : Prop :=
  ∀ path leaf, path ≠ [] → mT.root.find? path = some leaf →
    leaf.value.subs.entries ≠ [] ∨ leaf.children ≠ [] ∨ leaf.value.retained.isSome

/-- The trie has no more nodes below its root than there are levels in the filters and topics
with a subscription or a retained object. -/
def Bounded (mT : Provider) : Prop :=
  mT.root.nodes.length ≤ 1 +
    ((mT.root.nodes.filter fun entry => !entry.2.isBlank).map fun entry => entry.1.length).sum

/-- A search with a filter reads, at a path below the root, an expired object at a node that has
neither subscriptions nor children. -/
def Strips (mT : Provider) (filter : GoString) (now : Time) (path : List Level) : Prop :=
  Node.retainMatches (split filter) path = true ∧
    ∃ leaf obj, mT.root.find? path = some leaf ∧ leaf.value.subs.entries = [] ∧
      leaf.children = [] ∧ leaf.value.retained = some obj ∧
      (obj.packetAt now).expired now = true

/-- Whether `Subscribe` looks for retained messages. -/
def searchesRetained (mT : Provider) (filter : GoString) (s : Hash) (p : SubscriptionParams) :
    Prop :=
  p.Ops.retainHandling = RetainHandlingRetain ∨
    (p.Ops.retainHandling = RetainHandlingIfNotExists ∧ mT.params filter s = none)

/-- An operation strips no node. A subscription that is added first keeps the nodes on the path
of its filter. -/
def Spares (mT : Provider) : Op → Prop
  | .retained filter now => ∀ path, ¬mT.Strips filter now path
  | .subscribe filter s p now => mT.searchesRetained filter s p →
      ∀ path, ¬path <+: split filter → ¬mT.Strips filter now path
  | _ => True

section Pruning

variable {mT : Provider}

theorem noDeadNodes_iff : mT.NoDeadNodes ↔ mT.root.Pruned NodeData.isBlank := by
  rw [Trie.pruned_iff mT.wf, NoDeadNodes]
  apply forall_congr'
  intro path
  apply forall_congr'
  intro leaf
  apply imp_congr_right
  intro _
  apply imp_congr_right
  intro _
  rw [Trie.isDead_eq, NodeData.isBlank]
  cases leaf.value.subs.entries <;> cases leaf.value.retained <;> cases leaf.children <;> simp

theorem bounded_of_pruned (pruned : mT.root.Pruned NodeData.isBlank) : mT.Bounded :=
  pruned.length_nodes_le

theorem isBlank_putSubscriber (sub : Hash) (p : SubscriptionParams) (data : NodeData) :
    (putSubscriber sub p data).isBlank = false := by
  simp only [putSubscriber, NodeData.isBlank]
  cases data.subs.lookup sub <;> simp [AList.insert]

theorem pruned_subscriptionInsert (pruned : mT.root.Pruned NodeData.isBlank) (filter : GoString)
    (s : Hash) (p : SubscriptionParams) :
    (mT.subscriptionInsert filter s p).1.root.Pruned NodeData.isBlank :=
  pruned.insertWith _ (isBlank_putSubscriber s p) (split filter)

theorem pruned_unSubscribe (pruned : mT.root.Pruned NodeData.isBlank) (filter : GoString)
    (s : Option Hash) : (mT.unSubscribe filter s).1.root.Pruned NodeData.isBlank := by
  simp only [unSubscribe, subscriptionRemove]
  split
  · exact pruned
  · exact pruned.pruneWith _ _

theorem pruned_retain (pruned : mT.root.Pruned NodeData.isBlank) (obj : RetainObject) :
    (mT.retain obj).root.Pruned NodeData.isBlank := by
  have inserted : ∀ (other : Provider) (topic : GoString) (obj : RetainObject),
      other.root.Pruned NodeData.isBlank →
        (other.retainInsert topic obj).root.Pruned NodeData.isBlank := by
    intro other topic obj before
    apply before.insertWith
    intro data
    simp [NodeData.isBlank]
  have removed : ∀ topic, (mT.retainRemove topic).1.root.Pruned NodeData.isBlank := by
    intro topic
    simp only [retainRemove]
    split
    · exact pruned
    · exact pruned.pruneWith _ _
  cases obj with
  | dynamic value => exact inserted mT _ _ pruned
  | publish t =>
      simp only [retain]
      split
      · split
        · exact removed _
        · exact pruned
      · split
        · exact inserted _ _ _ (removed _)
        · exact inserted mT _ _ pruned

/-- A search keeps the trie free of empty nodes if and only if it strips none. -/
theorem pruned_retainSearch_iff (pruned : mT.root.Pruned NodeData.isBlank) (filter : GoString)
    (now : Time) :
    (mT.retainSearch filter now).1.root.Pruned NodeData.isBlank ↔
      ∀ path, ¬mT.Strips filter now path := by
  have changed := Node.retainSearch_fst mT.root filter now
  have changedWF : (mT.root.mapPath
      (Node.expireAt now (Node.retainMatches (split filter)))).WF := by
    rw [← changed]
    exact (mT.retainSearch filter now).1.wf
  change (Node.retainSearch mT.root filter now).1.Pruned NodeData.isBlank ↔ _
  rw [changed, Trie.pruned_mapPath_iff _ changedWF]
  constructor
  · rintro kept path ⟨selected, leaf, obj, reached, noSubs, bare, held, gone⟩
    have below : path ≠ [] := by
      rintro rfl
      cases filterLevels : split filter <;> simp [Node.retainMatches, filterLevels] at selected
    apply kept path leaf below reached
    refine ⟨?_, bare⟩
    simp [Node.expireAt, selected, NodeData.dropExpired, held, gone, NodeData.isBlank, noSubs]
  · rintro spared path leaf below reached ⟨empty, bare⟩
    have alive := (Trie.pruned_iff mT.wf).mp pruned path leaf below reached
    rw [Trie.isDead_eq, bare] at alive
    have notBlank : leaf.value.isBlank = false := by simpa using alive
    unfold Node.expireAt at empty
    cases selected : Node.retainMatches (split filter) path with
    | false => simp [selected, notBlank] at empty
    | true =>
        simp only [selected, if_true] at empty
        cases held : leaf.value.retained with
        | none => simp [NodeData.dropExpired, held, notBlank] at empty
        | some obj =>
            by_cases gone : (obj.packetAt now).expired now = true
            · apply spared path
              refine ⟨selected, leaf, obj, reached, ?_, bare, held, gone⟩
              simpa [NodeData.dropExpired, held, gone, NodeData.isBlank] using empty
            · simp [NodeData.dropExpired, held, gone, notBlank] at empty

/-- After a subscription is added, a search strips the nodes off its path that it would have
stripped before. -/
theorem strips_subscriptionInsert_iff (filter : GoString) (s : Hash) (p : SubscriptionParams)
    (now : Time) :
    (∀ path, ¬(mT.subscriptionInsert filter s p).1.Strips filter now path) ↔
      ∀ path, ¬path <+: split filter → ¬mT.Strips filter now path := by
  have off : ∀ path, ¬path <+: split filter →
      ((mT.subscriptionInsert filter s p).1.Strips filter now path ↔
        mT.Strips filter now path) := by
    intro path notOn
    have same : (mT.subscriptionInsert filter s p).1.root.find? path = mT.root.find? path :=
      Trie.find?_insertWith_of_not_isPrefix _ _ mT.root notOn
    rw [Strips, Strips, same]
  constructor
  · intro spared path notOn strips
    exact spared path ((off path notOn).mpr strips)
  · intro spared path strips
    by_cases on : path <+: split filter
    · -- a node on the path has the new subscription or a child on the way to it
      rcases strips with ⟨_, leaf, obj, reached, noSubs, bare, held, gone⟩
      let unsubscribed : NodeData → Bool := fun data => data.subs.entries.isEmpty
      have subscribed : ∀ data, unsubscribed (putSubscriber s p data) = false := by
        intro data
        simp only [unsubscribed, putSubscriber]
        cases data.subs.lookup s <;> simp [AList.insert]
      have alive := @Trie.isDead_of_isPrefix _ _ unsubscribed _ _ _ subscribed mT.root _ _ on _
        reached
      simp [Trie.isDead_eq, unsubscribed, noSubs, bare] at alive
    · exact spared path on ((off path on).mp strips)

/-- An operation keeps the trie free of empty nodes if and only if it strips none. -/
theorem pruned_step_iff (pruned : mT.root.Pruned NodeData.isBlank) (op : Op) :
    (mT.step op).1.root.Pruned NodeData.isBlank ↔ mT.Spares op := by
  cases op with
  | retained filter now => exact pruned_retainSearch_iff pruned filter now
  | unSubscribe filter s => exact iff_of_true (pruned_unSubscribe pruned filter (some s)) trivial
  | unSubscribeAll filter => exact iff_of_true (pruned_unSubscribe pruned filter none) trivial
  | retain obj => exact iff_of_true (pruned_retain pruned obj) trivial
  | subscribe filter s p now =>
      have inserted := pruned_subscriptionInsert pruned filter s { p with Granted := p.Ops.qos }
      have existed : (mT.subscriptionInsert filter s { p with Granted := p.Ops.qos }).2 =
          (mT.params filter s).isSome := by
        rw [params, Option.isSome_map]
        rfl
      have asked : (p.Ops.retainHandling = RetainHandlingRetain ∨
          p.Ops.retainHandling = RetainHandlingIfNotExists ∧
            (!(mT.subscriptionInsert filter s { p with Granted := p.Ops.qos }).2) = true) ↔
          mT.searchesRetained filter s p := by
        rw [existed, searchesRetained]
        simp
      simp only [step, subscribe, Spares]
      by_cases searches : mT.searchesRetained filter s p
      · rw [if_pos (asked.mpr searches)]
        simp only [searches, true_imp_iff]
        rw [← strips_subscriptionInsert_iff filter s { p with Granted := p.Ops.qos } now]
        exact pruned_retainSearch_iff inserted filter now
      · rw [if_neg fun wanted => searches (asked.mp wanted)]
        exact iff_of_true inserted fun wanted => absurd wanted searches

end Pruning

theorem run_fst (mT : Provider) (ops : List Op) :
    (mT.run ops).1 = ops.foldl (fun mT op => (mT.step op).1) mT := by
  induction ops generalizing mT with
  | nil => rfl
  | cons op ops ih => exact ih (mT.step op).1

/-- In a run of operations the trie is at all times free of empty nodes, and so its size bounded
by its content, if and only if no operation strips a node. -/
theorem noDeadNodes_run_iff (mode : Bool) (ops : List Op) :
    (∀ n, ((empty mode).run (ops.take n)).1.NoDeadNodes ∧
        ((empty mode).run (ops.take n)).1.Bounded) ↔
      Along (fun mT op => (mT.step op).1) Spares (empty mode) ops := by
  let pruned : Provider → Prop := fun mT => mT.root.Pruned NodeData.isBlank
  let next : Provider → Op → Provider := fun mT op => (mT.step op).1
  have start : pruned (empty mode) := Trie.pruned_leaf _
  have always : (∀ n, pruned ((ops.take n).foldl next (empty mode))) ↔
      pruned (empty mode) ∧ Along next Spares (empty mode) ops := by
    apply always_iff_along (fun _ => True) pruned
    · exact fun _ _ _ => trivial
    · exact fun mT op _ before => pruned_step_iff before op
    · trivial
  rw [and_iff_right start] at always
  rw [← always]
  apply forall_congr'
  intro n
  rw [noDeadNodes_iff, run_fst]
  constructor
  · exact fun both => both.1
  · exact fun clean => ⟨clean, bounded_of_pruned clean⟩

/-- A message retained with an expiry time of one second. -/
def shortLived : Publish :=
  { retainedSample (ascii "a") with version := ProtocolV50, expireAt := some 1000000000 }

/-- The search that finds the message expired takes it and leaves its node. -/
theorem shortLived_leaves_node :
    ¬((empty false).run
      [.retain (.publish shortLived), .retained (ascii "#") 2000000000]).1.NoDeadNodes := by
  intro clean
  have leaf := clean [ascii "a"] _ (by simp) rfl
  revert leaf
  decide

end Provider

end VolantMQ.Topics
