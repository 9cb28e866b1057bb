import VolantMQ.Lib.Trie
import VolantMQ.Packet.Publish

/-!
# The topic trie

The in-memory topics provider of `topics/mem`: one trie holds the subscriptions and the
retained objects, keyed by the levels of a filter or a topic. The `parent` pointers of the
source only serve its two loops that run up from a leaf and detach empty nodes; here this is
`Lib.Trie.pruneWith`, which detaches on the way back from the descent, leaf first.

A node's method value `getSubscribers` is the flag `overlap` it was chosen by. Reading retained
messages clears the expired ones, so the retained searches return the trie as well.
-/

namespace VolantMQ.Topics

open Lib Packet

/-- One level of a topic or a filter. -/
abbrev Level := GoString

/-- The multi-level wildcard. -/
def MWC : Level := [0x23]

/-- The single-level wildcard. -/
def SWC : Level := [0x2B]

/-- `strings.Split(s, "/")` -/
def split (s : GoString) : List Level := s.splitOn 0x2F

/-- `strings.HasPrefix(level, "$")` -/
def isSystem (level : Level) : Bool := [0x24].isPrefixOf level

/-- `Subscriber.Hash()`: the address of a subscriber, which stands for the subscriber. -/
abbrev Hash := ℕ

structure SubscriptionParams where
  ID : UInt32
  Ops : SubscriptionOptions
  Granted : QosType
  deriving DecidableEq, Repr

structure SubscribedEntry where
  s : Hash
  p : SubscriptionParams
  deriving DecidableEq, Repr

abbrev SubscribedEntries := AList fun _ : Hash => SubscribedEntry

structure PublishEntry where
  s : Hash
  ops : SubscriptionOptions
  qos : QosType
  ids : List UInt32
  deriving DecidableEq, Repr

abbrev PublishEntries := AList fun _ : Hash => List PublishEntry

/-- A `systree` value: its topic, and the text its `getValue` yields at an instant. -/
structure DynamicValue where
  topic : GoString
  getValue : Time → Bytes

/-- `dynamicValue.Retained` at an instant; the errors of the setters are ignored. -/
def DynamicValue.retained (value : DynamicValue) (now : Time) : Publish :=
  let pkt := Publish.new ProtocolV311
  let pkt :=
    match pkt.setTopic value.topic with
    | .ok pkt => pkt
    | .error _ => pkt
  let pkt :=
    match pkt.setQoS QoS0 with
    | .ok pkt => pkt
    | .error _ => pkt
  { pkt.setRetain true with payload := value.getValue now }

/-- What can be retained: `types.RetainObject`. -/
inductive RetainObject where
  | publish (packet : Publish)
  | dynamic (value : DynamicValue)

namespace RetainObject

def topic : RetainObject → GoString
  | publish packet => packet.topic
  | dynamic value => value.topic

/-- The packet a retained object stands for at an instant. -/
def packetAt (now : Time) : RetainObject → Publish
  | publish packet => packet
  | dynamic value => value.retained now

end RetainObject

/-- The fields of a `node` other than its links. -/
structure NodeData where
  retained : Option RetainObject
  subs : SubscribedEntries
  overlap : Bool

namespace NodeData

/-- `newNode` -/
def new (overlap : Bool) : NodeData := ⟨none, ∅, overlap⟩

/-- No subscribers and nothing retained. -/
def isBlank (data : NodeData) : Bool := data.subs.entries.isEmpty && data.retained.isNone

def acquire (entry : SubscribedEntry) : PublishEntry :=
  { s := entry.s
    ops := entry.p.Ops
    qos := entry.p.Granted
    ids := if 0 < entry.p.ID then [entry.p.ID] else [] }

/-- Whether an entry may receive what `publishID` published. -/
def mayReceive (publishID id : Hash) (entry : SubscribedEntry) : Bool :=
  !SubscriptionOptions.nl entry.p.Ops || id != publishID

/-- One round of the loop of `nonOverlappingSubscribers`. -/
def addNonOverlapping (publishID : Hash) (p : PublishEntries)
    (sub : Σ _ : Hash, SubscribedEntry) : PublishEntries :=
  if mayReceive publishID sub.1 sub.2 then
    match p.lookup sub.1 with
    | some entries => p.insert sub.1 (entries ++ [acquire sub.2])
    | none => p.insert sub.1 [acquire sub.2]
  else p

def nonOverlappingSubscribers (data : NodeData) (publishID : Hash) (p : PublishEntries) :
    PublishEntries :=
  data.subs.entries.foldl (addNonOverlapping publishID) p

/-- The merge of a further subscription into the first entry of a subscriber. -/
def mergeInto (sub : SubscribedEntry) : List PublishEntry → List PublishEntry
  | [] => []
  | first :: rest =>
      { first with
        ids := if 0 < sub.p.ID then first.ids ++ [sub.p.ID] else first.ids
        qos := if first.qos < sub.p.Granted then sub.p.Granted else first.qos } :: rest

/-- One round of the loop of `overlappingSubscribers`. -/
def addOverlapping (publishID : Hash) (p : PublishEntries)
    (sub : Σ _ : Hash, SubscribedEntry) : PublishEntries :=
  match p.lookup sub.1 with
  | some entries => p.insert sub.1 (mergeInto sub.2 entries)
  | none =>
      if mayReceive publishID sub.1 sub.2 then p.insert sub.1 [acquire sub.2] else p

def overlappingSubscribers (data : NodeData) (publishID : Hash) (p : PublishEntries) :
    PublishEntries :=
  data.subs.entries.foldl (addOverlapping publishID) p

/-- The method value `node.getSubscribers`. -/
def getSubscribers (data : NodeData) (publishID : Hash) (p : PublishEntries) : PublishEntries :=
  if data.overlap then data.overlappingSubscribers publishID p
  else data.nonOverlappingSubscribers publishID p

/-- The packet that `getRetained` appends, if any. -/
def liveRetained (now : Time) (data : NodeData) : Option Publish :=
  match data.retained with
  | none => none
  | some obj => if (obj.packetAt now).expired now then none else some (obj.packetAt now)

/-- The effect of `getRetained` on the node: an expired object is dropped. -/
def dropExpired (now : Time) (data : NodeData) : NodeData :=
  match data.retained with
  | none => data
  | some obj => if (obj.packetAt now).expired now then { data with retained := none } else data

end NodeData

/-- `node`: a trie over levels. -/
abbrev Node := Trie Level NodeData

namespace Node

def subscriptionRecurseSearch (publishID : Hash) :
    List Level → Node → PublishEntries → PublishEntries
  | [], root, p =>
      let p := root.value.getSubscribers publishID p
      match root.child? MWC with
      | some n => n.value.getSubscribers publishID p
      | none => p
  | level :: levels, root, p =>
      let p :=
        match root.child? MWC with
        | some n => if level.length ≠ 0 then n.value.getSubscribers publishID p else p
        | none => p
      let p :=
        match root.child? level with
        | some n => subscriptionRecurseSearch publishID levels n p
        | none => p
      match root.child? SWC with
      | some n => subscriptionRecurseSearch publishID levels n p
      | none => p

/-- `provider.subscriptionSearch` on the root of the trie. -/
def subscriptionSearch (root : Node) (topic : GoString) (publishID : Hash) (p : PublishEntries) :
    PublishEntries :=
  match split topic with
  | [] => p
  | level :: levels =>
      if !isSystem level then subscriptionRecurseSearch publishID (level :: levels) root p
      else
        match root.child? level with
        | some n => subscriptionRecurseSearch publishID levels n p
        | none => p

/-- `node.getRetained`: the node afterwards and the packets appended. -/
def getRetained (now : Time) (sn : Node) : Node × List Publish :=
  (sn.modifyValue (NodeData.dropExpired now), (NodeData.liveRetained now sn.value).toList)

mutual

def allRetained (now : Time) : Node → Node × List Publish
  | .node data branches =>
      let below := allRetainedBranches now branches
      (.node (data.dropExpired now) below.1, (data.liveRetained now).toList ++ below.2)

/-- The loop of `allRetained` over the children. -/
def allRetainedBranches (now : Time) :
    List (Σ _ : Level, Node) → List (Σ _ : Level, Node) × List Publish
  | [] => ([], [])
  | ⟨level, n⟩ :: rest =>
      let here := allRetained now n
      let others := allRetainedBranches now rest
      (⟨level, here.1⟩ :: others.1, here.2 ++ others.2)

end

/-- Replace the child reached by a level, if there is one, by what a search left of it. -/
def withChild (root : Node) (level : Level) (search : Node → Node × List Publish) : Node :=
  root.updateChildren fun key child => if key = level then (search child).1 else child

/-- Run a search on the child reached by a level, if there is one. -/
def searchChild (root : Node) (level : Level) (search : Node → Node × List Publish) :
    Node × List Publish :=
  match root.child? level with
  | some n => (root.withChild level search, (search n).2)
  | none => (root, [])

/-- Run a search on every child that passes a test on its level. -/
def searchChildren (root : Node) (test : Level → Bool) (search : Node → Node × List Publish) :
    Node × List Publish :=
  (root.updateChildren fun key child => if test key then (search child).1 else child,
    root.children.flatMap fun branch => if test branch.1 then (search branch.2).2 else [])

def retainRecurseSearch (now : Time) : List Level → Node → Node × List Publish
  | [], root =>
      let here := root.getRetained now
      let below := searchChild here.1 MWC (allRetained now)
      (below.1, here.2 ++ below.2)
  | level :: levels, root =>
      if level = MWC then allRetained now root
      else if level = SWC then searchChildren root (fun _ => true) (retainRecurseSearch now levels)
      else searchChild root level (retainRecurseSearch now levels)

/-- `provider.retainSearch` on the root of the trie. -/
def retainSearch (root : Node) (filter : GoString) (now : Time) : Node × List Publish :=
  match split filter with
  | [] => (root, [])
  | level :: levels =>
      if level = MWC then
        searchChildren root (fun t => t.length != 0 && !isSystem t) (allRetained now)
      else if isSystem level ∧ (root.child? level).isSome then
        searchChild root level (retainRecurseSearch now levels)
      else retainRecurseSearch now (level :: levels) root

def leafSearchNode (root : Node) (levels : List Level) : Option Node := root.find? levels

/-- `leafInsertNode` followed by an assignment to the node it returns. -/
def leafInsertNode (overlap : Bool) (assign : NodeData → NodeData) (levels : List Level)
    (root : Node) : Node :=
  root.insertWith (NodeData.new overlap) assign levels

/-- An assignment to the node found by `leafSearchNode`, followed by the loop that runs up and
removes every node without subscribers, children and retained object from its parent. -/
def leafCleanUp (assign : NodeData → NodeData) (levels : List Level) (root : Node) : Node :=
  root.pruneWith NodeData.isBlank assign levels

/-- The data of a node before and after a retained search: at most the retained object is
gone, and only because it has expired. -/
def Expires (now : Time) (before after : NodeData) : Prop :=
  after = before ∨ after = before.dropExpired now

theorem Expires.refl (now : Time) (data : NodeData) : Expires now data data := .inl rfl

theorem dropExpired_idem (now : Time) (data : NodeData) :
    (data.dropExpired now).dropExpired now = data.dropExpired now := by
  rcases data with ⟨_ | obj, subs, overlap⟩
  · rfl
  · by_cases gone : (obj.packetAt now).expired now = true <;> simp [NodeData.dropExpired, gone]

theorem Expires.trans {now : Time} (first second third : NodeData)
    (left : Expires now first second) (right : Expires now second third) :
    Expires now first third := by
  rcases left with rfl | rfl
  · exact right
  · rcases right with rfl | rfl
    · exact .inr rfl
    · exact .inr (dropExpired_idem now first)

theorem Expires.subs {now : Time} {before after : NodeData} (expires : Expires now before after) :
    after.subs = before.subs := by
  rcases expires with rfl | rfl
  · rfl
  · rcases before with ⟨_ | obj, subs, overlap⟩
    · rfl
    · simp only [NodeData.dropExpired]
      split <;> rfl

theorem Expires.overlap {now : Time} {before after : NodeData}
    (expires : Expires now before after) : after.overlap = before.overlap := by
  rcases expires with rfl | rfl
  · rfl
  · rcases before with ⟨_ | obj, subs, overlap⟩
    · rfl
    · simp only [NodeData.dropExpired]
      split <;> rfl

mutual

theorem allRetained_eq (now : Time) : (n : Node) →
    allRetained now n = (n.map (NodeData.dropExpired now),
      n.nodes.filterMap fun entry => entry.2.liveRetained now)
  | .node data branches => by
      simp only [allRetained, allRetainedBranches_eq now branches, Trie.map, Trie.nodes,
        List.filterMap_cons]
      cases NodeData.liveRetained now data <;> simp

theorem allRetainedBranches_eq (now : Time) : (branches : List (Σ _ : Level, Node)) →
    allRetainedBranches now branches = (Trie.mapBranches (NodeData.dropExpired now) branches,
      (Trie.branchNodes branches).filterMap fun entry => entry.2.liveRetained now)
  | [] => by simp [allRetainedBranches, Trie.mapBranches, Trie.branchNodes]
  | ⟨level, n⟩ :: rest => by
      simp only [allRetainedBranches, allRetained_eq now n, allRetainedBranches_eq now rest,
        Trie.mapBranches, Trie.branchNodes, List.filterMap_append, List.filterMap_map]
      rfl

end

/-- A search keeps the shape of the trie and drops nothing but expired retained objects. -/
def Harmless (now : Time) (search : Node → Node × List Publish) : Prop :=
  ∀ n : Node, n.WF → (search n).1.WF ∧ n.Pointwise (Expires now) (search n).1

theorem harmless_allRetained (now : Time) : Harmless now (allRetained now) := by
  intro n wf
  rw [allRetained_eq]
  exact ⟨wf.map _, Trie.Pointwise.map (fun _ => .inr rfl) n⟩

theorem harmless_getRetained (now : Time) : Harmless now (getRetained now) := by
  intro n wf
  exact ⟨wf.modifyValue _, Trie.Pointwise.modifyValue (Expires.refl now) (fun _ => .inr rfl) n⟩

theorem harmless_searchChildren {now : Time} {search : Node → Node × List Publish}
    (harmless : Harmless now search) (test : Level → Bool) :
    Harmless now (fun root => searchChildren root test search) := by
  intro root wf
  constructor
  · apply wf.updateChildren
    intro branch member
    split
    · exact (harmless _ (wf.branch _ member)).1
    · exact wf.branch _ member
  · apply Trie.Pointwise.updateChildren (Expires.refl now)
    intro key child found
    split
    · exact (harmless _ (wf.child? found)).2
    · exact Trie.Pointwise.refl (Expires.refl now) child

theorem harmless_searchChild {now : Time} {search : Node → Node × List Publish}
    (harmless : Harmless now search) (level : Level) :
    Harmless now (fun root => searchChild root level search) := by
  intro root wf
  simp only [searchChild]
  cases found : root.child? level with
  | none => exact ⟨wf, Trie.Pointwise.refl (Expires.refl now) root⟩
  | some n =>
      have asTest := harmless_searchChildren harmless (fun key => decide (key = level)) root wf
      simpa [searchChildren, withChild] using asTest

theorem harmless_retainRecurseSearch (now : Time) (levels : List Level) :
    Harmless now (retainRecurseSearch now levels) := by
  induction levels with
  | nil =>
      intro root wf
      have here := harmless_getRetained now root wf
      have below := harmless_searchChild (harmless_allRetained now) MWC _ here.1
      exact ⟨below.1, Trie.Pointwise.trans Expires.trans here.2 below.2⟩
  | cons level levels ih =>
      intro root wf
      simp only [retainRecurseSearch]
      split
      · exact harmless_allRetained now root wf
      · split
        · exact harmless_searchChildren ih (fun _ => true) root wf
        · exact harmless_searchChild ih level root wf

theorem harmless_retainSearch (now : Time) (filter : GoString) :
    Harmless now (fun root => retainSearch root filter now) := by
  intro root wf
  simp only [retainSearch]
  cases split filter with
  | nil => exact ⟨wf, Trie.Pointwise.refl (Expires.refl now) root⟩
  | cons level levels =>
      simp only
      split
      · exact harmless_searchChildren (harmless_allRetained now) _ root wf
      · split
        · exact harmless_searchChild (harmless_retainRecurseSearch now levels) level root wf
        · exact harmless_retainRecurseSearch now (level :: levels) root wf

end Node

namespace NodeData

/-- What holds of every node of a provider: it was created in the provider's mode, and its
subscriptions are filed under their own subscriber. -/
structure Ok (allowOverlapping : Bool) (data : NodeData) : Prop where
  mode : data.overlap = allowOverlapping
  filed : ∀ sub entry, data.subs.lookup sub = some entry → entry.s = sub

theorem Ok.new (allowOverlapping : Bool) : (NodeData.new allowOverlapping).Ok allowOverlapping :=
  ⟨rfl, by simp [NodeData.new]⟩

theorem Ok.expires {allowOverlapping : Bool} {now : Time} (before after : NodeData)
    (expires : Node.Expires now before after) (ok : before.Ok allowOverlapping) :
    after.Ok allowOverlapping :=
  ⟨expires.overlap.trans ok.mode, by rw [expires.subs]; exact ok.filed⟩

end NodeData

/-- `topicsTypes.ErrNotFound`, the only error of these functions. -/
inductive TopicsError where
  | ErrNotFound
  deriving DecidableEq, Repr

/-- `mem.provider` with the invariant of its trie. The channels of the provider are in the
broker model. -/
structure Provider where
  root : Node
  allowOverlapping : Bool
  wf : root.WF
  ok : root.All (NodeData.Ok allowOverlapping)

namespace Provider

/-- A provider in a given mode with an empty trie. -/
def empty (allowOverlapping : Bool) : Provider where
  root := .node (NodeData.new allowOverlapping) []
  allowOverlapping := allowOverlapping
  wf := Trie.wf_leaf _
  ok := .node (.new allowOverlapping) (by simp)

/-- `NewMemProvider` without a persistence backend. The configured overlap setting is not
copied into the provider, so the field has its zero value. -/
def new : Provider := empty false

/-- `leafInsertNode` followed by an assignment to the node. -/
def insertAt (mT : Provider) (levels : List Level) (assign : NodeData → NodeData)
    (keeps : ∀ data, data.Ok mT.allowOverlapping → (assign data).Ok mT.allowOverlapping) :
    Provider :=
  { mT with
    root := Node.leafInsertNode mT.allowOverlapping assign levels mT.root
    wf := mT.wf.insertWith _ _ _
    ok := mT.ok.insertWith (.new _) keeps levels }

/-- An assignment to an existing node followed by the clean-up of its ancestors. -/
def cleanUpAt (mT : Provider) (levels : List Level) (assign : NodeData → NodeData)
    (keeps : ∀ data, data.Ok mT.allowOverlapping → (assign data).Ok mT.allowOverlapping) :
    Provider :=
  { mT with
    root := Node.leafCleanUp assign levels mT.root
    wf := mT.wf.pruneWith _ _ _
    ok := mT.ok.pruneWith _ keeps levels }

/-- The subscription of a subscriber at a node after `subscriptionInsert`: an existing entry
keeps its subscriber and gets the new parameters. -/
def putSubscriber (sub : Hash) (p : SubscriptionParams) (data : NodeData) : NodeData :=
  match data.subs.lookup sub with
  | none => { data with subs := data.subs.insert sub ⟨sub, p⟩ }
  | some s => { data with subs := data.subs.insert sub { s with p := p } }

theorem putSubscriber_ok {allowOverlapping : Bool} (sub : Hash) (p : SubscriptionParams)
    (data : NodeData) (ok : data.Ok allowOverlapping) :
    (putSubscriber sub p data).Ok allowOverlapping := by
  unfold putSubscriber
  cases found : data.subs.lookup sub with
  | none =>
      refine ⟨ok.mode, ?_⟩
      intro other entry look
      by_cases same : other = sub
      · subst other
        rw [AList.lookup_insert, Option.some.injEq] at look
        exact look ▸ rfl
      · rw [AList.lookup_insert_ne same] at look
        exact ok.filed other entry look
  | some s =>
      refine ⟨ok.mode, ?_⟩
      intro other entry look
      by_cases same : other = sub
      · subst other
        rw [AList.lookup_insert, Option.some.injEq] at look
        rw [← look]
        exact ok.filed sub s found
      · rw [AList.lookup_insert_ne same] at look
        exact ok.filed other entry look

/-- `provider.subscriptionInsert`: the provider afterwards and the result `exists`. -/
def subscriptionInsert (mT : Provider) (filter : GoString) (sub : Hash)
    (p : SubscriptionParams) : Provider × Bool :=
  let levels := split filter
  let leaf := mT.root.get (NodeData.new mT.allowOverlapping) levels
  (mT.insertAt levels (putSubscriber sub p) (putSubscriber_ok sub p),
    (leaf.subs.lookup sub).isSome)

/-- The assignment of `subscriptionRemove`: all subscribers for `nil`, else one. -/
def dropSubscriber (sub : Option Hash) (data : NodeData) : NodeData :=
  match sub with
  | none => { data with subs := ∅ }
  | some id => { data with subs := data.subs.erase id }

theorem dropSubscriber_ok {allowOverlapping : Bool} (sub : Option Hash) (data : NodeData)
    (ok : data.Ok allowOverlapping) : (dropSubscriber sub data).Ok allowOverlapping := by
  cases sub with
  | none => exact ⟨ok.mode, by simp [dropSubscriber]⟩
  | some id =>
      refine ⟨ok.mode, ?_⟩
      intro other entry look
      by_cases same : other = id
      · subst other
        simp [dropSubscriber] at look
      · simp only [dropSubscriber] at look
        rw [AList.lookup_erase_ne same] at look
        exact ok.filed other entry look

def subscriptionRemove (mT : Provider) (topic : GoString) (sub : Option Hash) :
    Provider × Option TopicsError :=
  let levels := split topic
  match Node.leafSearchNode mT.root levels with
  | none => (mT, some .ErrNotFound)
  | some leaf =>
      (mT.cleanUpAt levels (dropSubscriber sub) (dropSubscriber_ok sub),
        match sub with
        | none => none
        | some id => if (leaf.value.subs.lookup id).isSome then none else some .ErrNotFound)

def retainInsert (mT : Provider) (topic : GoString) (obj : RetainObject) : Provider :=
  mT.insertAt (split topic) (fun data => { data with retained := some obj })
    fun _ ok => ⟨ok.mode, ok.filed⟩

def retainRemove (mT : Provider) (topic : GoString) : Provider × Option TopicsError :=
  match Node.leafSearchNode mT.root (split topic) with
  | none => (mT, some .ErrNotFound)
  | some _ =>
      (mT.cleanUpAt (split topic) (fun data => { data with retained := none })
        fun _ ok => ⟨ok.mode, ok.filed⟩, none)

def retain (mT : Provider) (obj : RetainObject) : Provider :=
  match obj with
  | .publish t =>
      let removed :=
        if t.payload.length = 0 ∨ t.qos = QoS0 then (mT.retainRemove obj.topic).1 else mT
      if t.payload.length = 0 then removed else removed.retainInsert obj.topic obj
  | .dynamic _ => mT.retainInsert obj.topic obj

/-- `provider.retainSearch`: the provider afterwards and the packets found. -/
def retainSearch (mT : Provider) (filter : GoString) (now : Time) : Provider × List Publish :=
  let harmless := Node.harmless_retainSearch now filter mT.root mT.wf
  ({ mT with
      root := (Node.retainSearch mT.root filter now).1
      wf := harmless.1
      ok := mT.ok.of_pointwise NodeData.Ok.expires harmless.1 harmless.2 },
    (Node.retainSearch mT.root filter now).2)

/-- `provider.subscriptionSearch` into an empty result. -/
def subscriptionSearch (mT : Provider) (topic : GoString) (publishID : Hash) : PublishEntries :=
  Node.subscriptionSearch mT.root topic publishID ∅

/-- The results of `provider.Subscribe`, with the value of its local `exists`. -/
structure Subscribed where
  granted : QosType
  retained : List Publish
  existed : Bool

def subscribe (mT : Provider) (filter : GoString) (s : Hash) (p : SubscriptionParams)
    (now : Time) : Provider × Subscribed :=
  let p := { p with Granted := p.Ops.qos }
  let (mT, existed) := mT.subscriptionInsert filter s p
  let rh := p.Ops.retainHandling
  if rh = RetainHandlingRetain ∨ (rh = RetainHandlingIfNotExists ∧ !existed) then
    let (mT, r) := mT.retainSearch filter now
    (mT, ⟨p.Granted, r, existed⟩)
  else (mT, ⟨p.Granted, [], existed⟩)

/-- `provider.UnSubscribe`; `none` is the `nil` subscriber. -/
def unSubscribe (mT : Provider) (topic : GoString) (sub : Option Hash) :
    Provider × Option TopicsError :=
  mT.subscriptionRemove topic sub

def retained (mT : Provider) (filter : GoString) (now : Time) : Provider × List Publish :=
  mT.retainSearch filter now

/-- One operation on a provider, with the instant at which it runs where the code asks for
the time. -/
inductive Op where
  | subscribe (filter : GoString) (s : Hash) (p : SubscriptionParams) (now : Time)
  | unSubscribe (filter : GoString) (s : Hash)
  | unSubscribeAll (filter : GoString)
  | retain (obj : RetainObject)
  | retained (filter : GoString) (now : Time)

/-- What an operation reports about subscriptions: whether one existed, or its error. -/
inductive Report where
  | existed (answer : Bool)
  | error (answer : Option TopicsError)
  | silent
  deriving DecidableEq, Repr

/-- Run one operation. The answer of `UnSubscribe(filter, nil)` tells whether the node of the
filter existed, which is not a fact about subscriptions, and is left out. -/
def step (mT : Provider) : Op → Provider × Report
  | .subscribe filter s p now =>
      let (mT, answer) := mT.subscribe filter s p now
      (mT, .existed answer.existed)
  | .unSubscribe filter s =>
      let (mT, err) := mT.unSubscribe filter (some s)
      (mT, .error err)
  | .unSubscribeAll filter => ((mT.unSubscribe filter none).1, .silent)
  | .retain obj => (mT.retain obj, .silent)
  | .retained filter now => ((mT.retained filter now).1, .silent)

/-- Run a sequence of operations: the provider afterwards and all reports in order. -/
def run (mT : Provider) : List Op → Provider × List Report
  | [] => (mT, [])
  | op :: ops =>
      let (next, report) := mT.step op
      let (last, reports) := next.run ops
      (last, report :: reports)

end Provider

end VolantMQ.Topics
