import VolantMQ.Topics.Refinement

/-!
# Retained and live matching compared

`retainSearch` walks the trie of topics with a filter, `subscriptionSearch` the trie of filters
with a topic. As in `Search`, the walk of `retainSearch` is separated from what it does at a
node, which shows by path which topics a filter selects. The two searches agree on a filter and
a topic unless the filter selects the topic level by level and one of the special cases coded
in only one of them applies: a leading `+` against a `$` level, which only the live search
excludes, or a `#` after other levels against an empty level, which only the live search skips.
-/

namespace VolantMQ.Topics

open Lib Packet

namespace Node

/-- Put one more level in front of the paths of visited nodes. -/
def under (level : Level) (entries : List (List Level × NodeData)) :
    List (List Level × NodeData) :=
  entries.map fun entry => (level :: entry.1, entry.2)

/-- The nodes at which `retainRecurseSearch` reads the retained object, in order. -/
def retainRecurseVisited : List Level → Node → List (List Level × NodeData)
  | [], root =>
      ([], root.value) :: (root.child? MWC).toList.flatMap fun n => under MWC n.nodes
  | level :: levels, root =>
      if level = MWC then root.nodes
      else if level = SWC then
        root.children.flatMap fun branch =>
          under branch.1 (retainRecurseVisited levels branch.2)
      else (root.child? level).toList.flatMap fun n =>
        under level (retainRecurseVisited levels n)

/-- The nodes at which `retainSearch` reads the retained object, in order. -/
def retainVisited (filter : GoString) (root : Node) : List (List Level × NodeData) :=
  match split filter with
  | [] => []
  | level :: levels =>
      if level = MWC then
        root.children.flatMap fun branch =>
          if branch.1.length != 0 && !isSystem branch.1 then under branch.1 branch.2.nodes else []
      else if isSystem level ∧ (root.child? level).isSome then
        (root.child? level).toList.flatMap fun n => under level (retainRecurseVisited levels n)
      else retainRecurseVisited (level :: levels) root

/-- The packets found at visited nodes. -/
def livePackets (now : Time) (entries : List (List Level × NodeData)) : List Publish :=
  entries.filterMap fun entry => entry.2.liveRetained now

@[simp]
theorem livePackets_under (now : Time) (level : Level) (entries : List (List Level × NodeData)) :
    livePackets now (under level entries) = livePackets now entries := by
  simp [livePackets, under, List.filterMap_map]

theorem livePackets_flatMap {Branch : Type} (now : Time) (branches : List Branch)
    (entries : Branch → List (List Level × NodeData)) :
    livePackets now (branches.flatMap entries) =
      branches.flatMap fun branch => livePackets now (entries branch) :=
  List.filterMap_flatMap

theorem allRetained_snd (now : Time) (n : Node) :
    (allRetained now n).2 = livePackets now n.nodes := by
  rw [allRetained_eq]
  rfl

theorem searchChild_snd (root : Node) (level : Level) (search : Node → Node × List Publish) :
    (searchChild root level search).2 =
      (root.child? level).toList.flatMap fun n => (search n).2 := by
  simp only [searchChild]
  cases root.child? level <;> simp

theorem retainRecurseSearch_snd (now : Time) (levels : List Level) (root : Node) :
    (retainRecurseSearch now levels root).2 =
      livePackets now (retainRecurseVisited levels root) := by
  induction levels generalizing root with
  | nil =>
      simp only [retainRecurseSearch, retainRecurseVisited, searchChild_snd, getRetained,
        Trie.child?_modifyValue, allRetained_snd]
      rw [← List.singleton_append, livePackets, List.filterMap_append, ← livePackets,
        ← livePackets, livePackets_flatMap]
      simp only [livePackets_under]
      cases here : NodeData.liveRetained now root.value <;> simp [livePackets, here]
  | cons level levels ih =>
      simp only [retainRecurseSearch, retainRecurseVisited]
      split
      · exact allRetained_snd now root
      · split
        · simp [searchChildren, livePackets_flatMap, ih]
        · simp [searchChild_snd, livePackets_flatMap, ih]

/-- A retained search returns what it finds at the visited nodes. -/
theorem retainSearch_snd (root : Node) (filter : GoString) (now : Time) :
    (retainSearch root filter now).2 = livePackets now (retainVisited filter root) := by
  unfold retainSearch retainVisited
  cases split filter with
  | nil => rfl
  | cons level levels =>
      simp only
      split
      · simp only [searchChildren, livePackets_flatMap, allRetained_snd]
        refine List.flatMap_congr ?_
        intro branch _
        split
        · rw [livePackets_under]
        · rfl
      · split
        · simp [searchChild_snd, livePackets_flatMap, retainRecurseSearch_snd]
        · exact retainRecurseSearch_snd now _ root

/-- Whether `retainRecurseSearch` with the given levels reads the node at a path. -/
def retainSelects : List Level → List Level → Bool
  | [], [] => true
  | [], key :: _ => key == MWC
  | level :: _, [] => level == MWC
  | level :: levels, key :: path =>
      level == MWC || (level == SWC || level == key) && retainSelects levels path

theorem mem_under {level : Level} {entries : List (List Level × NodeData)} {path : List Level}
    {data : NodeData} :
    (path, data) ∈ under level entries ↔ ∃ rest, path = level :: rest ∧ (rest, data) ∈ entries := by
  simp only [under, List.mem_map, Prod.mk.injEq]
  constructor
  · rintro ⟨⟨rest, other⟩, member, rfl, rfl⟩
    exact ⟨rest, rfl, member⟩
  · rintro ⟨rest, rfl, member⟩
    exact ⟨(rest, data), member, rfl, rfl⟩

/-- Reading below the child under one level. -/
theorem mem_below {root : Node} {level : Level} {path : List Level} {data : NodeData}
    {search : Node → List (List Level × NodeData)} {selected : List Level → Prop}
    (spec : ∀ n, root.child? level = some n → ∀ rest, (rest, data) ∈ search n ↔
      (n.find? rest).map Trie.value = some data ∧ selected rest) :
    (path, data) ∈ ((root.child? level).toList.flatMap fun n => under level (search n)) ↔
      ∃ rest, path = level :: rest ∧ (root.find? path).map Trie.value = some data ∧
        selected rest := by
  simp only [List.mem_flatMap, Option.mem_toList, mem_under]
  constructor
  · rintro ⟨n, found, rest, rfl, member⟩
    rw [spec n found] at member
    exact ⟨rest, rfl, by simpa [Trie.find?_cons, found] using member.1, member.2⟩
  · rintro ⟨rest, rfl, reached, chosen⟩
    cases found : root.child? level with
    | none => simp [Trie.find?_cons, found] at reached
    | some n =>
        refine ⟨n, rfl, rest, rfl, ?_⟩
        rw [spec n found]
        exact ⟨by simpa [Trie.find?_cons, found] using reached, chosen⟩

theorem mem_retainRecurseVisited {levels : List Level} {root : Node} (wf : root.WF)
    {path : List Level} {data : NodeData} :
    (path, data) ∈ retainRecurseVisited levels root ↔
      (root.find? path).map Trie.value = some data ∧ retainSelects levels path = true := by
  induction levels generalizing root path with
  | nil =>
      have spec : ∀ n, root.child? MWC = some n → ∀ rest, (rest, data) ∈ n.nodes ↔
          (n.find? rest).map Trie.value = some data ∧ True := by
        intro n found rest
        rw [Trie.mem_nodes_iff (wf.child? found), and_true]
      rw [retainRecurseVisited, List.mem_cons, mem_below spec, Prod.mk.injEq]
      constructor
      · rintro (⟨rfl, rfl⟩ | ⟨rest, rfl, reached, -⟩)
        · simp [retainSelects]
        · exact ⟨reached, by simp [retainSelects]⟩
      · rintro ⟨reached, chosen⟩
        cases path with
        | nil =>
            left
            simp only [Trie.find?_nil, Option.map_some, Option.some.injEq] at reached
            exact ⟨rfl, reached.symm⟩
        | cons key rest =>
            right
            simp only [retainSelects, beq_iff_eq] at chosen
            exact ⟨rest, by rw [chosen], reached, trivial⟩
  | cons level levels ih =>
      simp only [retainRecurseVisited]
      by_cases multi : level = MWC
      · rw [if_pos multi, Trie.mem_nodes_iff wf]
        cases path <;> simp [retainSelects, multi]
      · by_cases single : level = SWC
        · rw [if_neg multi, if_pos single, List.mem_flatMap]
          constructor
          · rintro ⟨branch, branchMem, member⟩
            rcases mem_under.mp member with ⟨rest, rfl, below⟩
            rw [ih (wf.branch branch branchMem)] at below
            have found := (Trie.child?_eq_some_iff wf).mpr branchMem
            refine ⟨by simpa [Trie.find?_cons, found] using below.1, ?_⟩
            simp [retainSelects, single, below.2]
          · rintro ⟨reached, chosen⟩
            cases path with
            | nil => simp [retainSelects, multi] at chosen
            | cons key rest =>
                cases found : root.child? key with
                | none => simp [Trie.find?_cons, found] at reached
                | some n =>
                    refine ⟨⟨key, n⟩, (Trie.child?_eq_some_iff wf).mp found, ?_⟩
                    rw [mem_under]
                    refine ⟨rest, rfl, ?_⟩
                    rw [ih (wf.child? found)]
                    refine ⟨by simpa [Trie.find?_cons, found] using reached, ?_⟩
                    simpa [retainSelects, single, show SWC ≠ MWC by decide] using chosen
        · rw [if_neg multi, if_neg single, mem_below fun n found rest => ih (wf.child? found)]
          constructor
          · rintro ⟨rest, rfl, reached, chosen⟩
            exact ⟨reached, by simp [retainSelects, chosen]⟩
          · rintro ⟨reached, chosen⟩
            cases path with
            | nil => simp [retainSelects, multi] at chosen
            | cons key rest =>
                simp only [retainSelects, Bool.or_eq_true, Bool.and_eq_true, beq_iff_eq, multi,
                  single, false_or] at chosen
                exact ⟨rest, by rw [chosen.1], reached, chosen.2⟩

/-- Whether `retainSearch` reads the node at a path: a leading `#` leaves out the first levels
that are empty or start with `$`. -/
def retainMatches : List Level → List Level → Bool
  | level :: levels, key :: path =>
      if level = MWC then key.length != 0 && !isSystem key
      else retainSelects (level :: levels) (key :: path)
  | _, _ => false

theorem mem_retainVisited {filter : GoString} {root : Node} (wf : root.WF) {key : Level}
    {path : List Level} {data : NodeData} :
    (key :: path, data) ∈ retainVisited filter root ↔
      (root.find? (key :: path)).map Trie.value = some data ∧
        retainMatches (split filter) (key :: path) = true := by
  unfold retainVisited
  cases split filter with
  | nil => simp [retainMatches]
  | cons level levels =>
      simp only [retainMatches]
      by_cases multi : level = MWC
      · simp only [multi, if_true, List.mem_flatMap]
        constructor
        · rintro ⟨branch, branchMem, member⟩
          split at member
          · rename_i passes
            rcases mem_under.mp member with ⟨rest, equation, below⟩
            rw [List.cons.injEq] at equation
            rcases equation with ⟨rfl, rfl⟩
            rw [Trie.mem_nodes_iff (wf.branch branch branchMem)] at below
            have found := (Trie.child?_eq_some_iff wf).mpr branchMem
            exact ⟨by simpa [Trie.find?_cons, found] using below, passes⟩
          · simp at member
        · rintro ⟨reached, passes⟩
          cases found : root.child? key with
          | none => simp [Trie.find?_cons, found] at reached
          | some n =>
              refine ⟨⟨key, n⟩, (Trie.child?_eq_some_iff wf).mp found, ?_⟩
              rw [if_pos passes, mem_under]
              refine ⟨path, rfl, ?_⟩
              rw [Trie.mem_nodes_iff (wf.child? found)]
              simpa [Trie.find?_cons, found] using reached
      · rw [if_neg multi, if_neg multi]
        split
        · rename_i system
          -- a `$` level is not `+`, so the search below it is the search from the root
          have notSingle : level ≠ SWC := by
            rintro rfl
            exact absurd system.1 (by decide)
          rw [← mem_retainRecurseVisited wf, retainRecurseVisited, if_neg multi, if_neg notSingle]
        · exact mem_retainRecurseVisited wf

end Node

/-- A filter whose wildcards occupy whole levels and whose `#` is last. -/
structure WellFormedFilter (filter : GoString) : Prop where
  single : ∀ level ∈ split filter, 0x2B ∈ level → level = SWC
  multi : ∀ level ∈ split filter, 0x23 ∈ level → level = MWC
  last : MWC ∉ (split filter).dropLast

instance (filter : GoString) : Decidable (WellFormedFilter filter) :=
  decidable_of_iff ((∀ level ∈ split filter, 0x2B ∈ level → level = SWC) ∧
      (∀ level ∈ split filter, 0x23 ∈ level → level = MWC) ∧ MWC ∉ (split filter).dropLast)
    ⟨fun h => ⟨h.1, h.2.1, h.2.2⟩, fun h => ⟨h.single, h.multi, h.last⟩⟩

/-- A filter selects a topic level by level: `+` any level, `#` whatever is left. -/
def selects : List Level → List Level → Bool
  | [], [] => true
  | [], _ :: _ => false
  | f :: _, [] => f == MWC
  | f :: fs, t :: ts => f == MWC || (f == SWC || f == t) && selects fs ts

/-- The `#` of a filter stands at an empty level of the topic. -/
def meetsEmpty : List Level → List Level → Bool
  | f :: fs, t :: ts => if f = MWC then t.length == 0 else meetsEmpty fs ts
  | _, _ => false

/-- A leading `+` against a first level that starts with `$`. -/
def meetsSystem : List Level → List Level → Bool
  | f :: _, t :: _ => f == SWC && isSystem t
  | _, _ => false

/-- The pairs on which retained and live matching disagree: the filter selects the topic, and
its first level is `+` where the topic starts with `$`, or its `#` stands after other levels and
at an empty level of the topic. -/
def Drifts (filter topic : GoString) : Prop :=
  selects (split filter) (split topic) = true ∧
    (meetsSystem (split filter) (split topic) = true ∨
      meetsEmpty (split filter).tail (split topic).tail = true)

instance (filter topic : GoString) : Decidable (Drifts filter topic) :=
  inferInstanceAs (Decidable (_ ∧ _))

theorem retainSelects_eq_selects {levels path : List Level} (literal : MWC ∉ path) :
    Node.retainSelects levels path = selects levels path := by
  induction levels generalizing path with
  | nil =>
      cases path with
      | nil => rfl
      | cons key rest =>
          have notMulti : key ≠ MWC := fun same => literal (by simp [same])
          simp [Node.retainSelects, selects, notMulti]
  | cons level levels ih =>
      cases path with
      | nil => rfl
      | cons key rest =>
          have below := ih (fun member => literal (List.mem_cons_of_mem key member))
          simp [Node.retainSelects, selects, below]

theorem last_tail {level : Level} {levels : List Level} (last : MWC ∉ (level :: levels).dropLast) :
    MWC ∉ levels.dropLast := by
  cases levels with
  | nil => simp
  | cons second rest =>
      rw [List.dropLast_cons_cons] at last
      exact fun member => last (List.mem_cons_of_mem level member)

theorem eq_nil_of_last {levels : List Level} (last : MWC ∉ (MWC :: levels).dropLast) :
    levels = [] := by
  cases levels with
  | nil => rfl
  | cons second rest => exact absurd (by simp) last

theorem matchLevels_eq_selects {levels path : List Level} (last : MWC ∉ levels.dropLast) :
    matchLevels levels path = (selects levels path && !meetsEmpty levels path) := by
  induction levels generalizing path with
  | nil => cases path <;> rfl
  | cons level levels ih =>
      by_cases multi : level = MWC
      · subst level
        rw [eq_nil_of_last last]
        cases path with
        | nil => rfl
        | cons key rest => simp [matchLevels, selects, meetsEmpty, bne]
      · have notMulti : (level == MWC) = false := beq_eq_false_iff_ne.mpr multi
        cases path with
        | nil => simp [matchLevels, selects, notMulti]
        | cons key rest =>
            simp [matchLevels, selects, meetsEmpty, multi, notMulti, ih (last_tail last),
              Bool.and_assoc]

theorem isSystem_ne_wildcard {level : Level} (system : isSystem level = true) :
    level ≠ MWC ∧ level ≠ SWC := by
  constructor <;> rintro rfl <;> exact absurd system (by decide)

/-- Retained and live matching give the same answer exactly on the pairs that do not drift. -/
theorem retainMatches_eq_filterMatches_iff {filter topic : GoString}
    (wellFormed : WellFormedFilter filter) (free : WildcardFree topic) :
    Node.retainMatches (split filter) (split topic) = filterMatches filter topic ↔
      ¬Drifts filter topic := by
  have literal := levels_literal free
  have last := wellFormed.last
  unfold Drifts filterMatches
  cases filterLevels : split filter with
  | nil => exact absurd filterLevels (split_ne_nil filter)
  | cons f fs =>
      cases topicLevels : split topic with
      | nil => exact absurd topicLevels (split_ne_nil topic)
      | cons t ts =>
          rw [filterLevels] at last
          rw [topicLevels] at literal
          have tLiteral := literal t (by simp)
          have noMulti : MWC ∉ t :: ts := fun member => (literal MWC member).1 rfl
          simp only [Node.retainMatches, pathMatches, List.tail_cons, meetsSystem]
          by_cases multi : f = MWC
          · -- a leading `#` excludes the same first levels in both searches
            subst f
            rw [eq_nil_of_last last]
            by_cases system : isSystem t = true
            · simp [system, meetsEmpty, Ne.symm tLiteral.1, show MWC ≠ SWC by decide]
            · simp [system, meetsEmpty, matchLevels]
          · have notMulti : (f == MWC) = false := beq_eq_false_iff_ne.mpr multi
            rw [if_neg multi, retainSelects_eq_selects noMulti, matchLevels_eq_selects last,
              matchLevels_eq_selects (last_tail last)]
            simp only [selects, meetsEmpty, multi, notMulti, if_false, Bool.false_or]
            generalize selects fs ts = below
            generalize meetsEmpty fs ts = empty
            by_cases system : isSystem t = true
            · by_cases single : f = SWC
              · subst f
                have notSame : (SWC == t) = false := beq_eq_false_iff_ne.mpr (Ne.symm tLiteral.2)
                cases below <;> simp [system, notSame]
              · have notSingle : (f == SWC) = false := beq_eq_false_iff_ne.mpr single
                cases below <;> cases empty <;> simp [system, notSingle]
            · cases below <;> cases empty <;> simp [system]

namespace Provider

/-- The packet of the unexpired object retained for a topic, if there is one. -/
def retainedFor (mT : Provider) (topic : GoString) (now : Time) : Option Publish :=
  (mT.root.find? (split topic)).bind fun leaf => leaf.value.liveRetained now

/-- `retainSearch` takes the message retained for a topic: it reads the node of the topic and
finds the message there. -/
def TakesRetained (mT : Provider) (filter topic : GoString) (now : Time) : Prop :=
  ∃ data, (split topic, data) ∈ Node.retainVisited filter mT.root ∧
    (data.liveRetained now).isSome

/-- `subscriptionSearch` yields an entry of a subscriber. -/
def FindsSubscriber (mT : Provider) (topic : GoString) (publishID s : Hash) : Prop :=
  ∃ entry ∈ NodeData.flat (mT.subscriptionSearch topic publishID), entry.s = s

theorem takesRetained_iff {mT : Provider} {filter topic : GoString} {now : Time} {m : Publish}
    (held : mT.retainedFor topic now = some m) :
    mT.TakesRetained filter topic now ↔
      Node.retainMatches (split filter) (split topic) = true := by
  unfold TakesRetained
  rcases Option.bind_eq_some_iff.mp held with ⟨leaf, reached, live⟩
  cases topicLevels : split topic with
  | nil => exact absurd topicLevels (split_ne_nil topic)
  | cons t ts =>
      rw [topicLevels] at reached
      simp only [Node.mem_retainVisited mT.wf, reached, Option.map_some, Option.some.injEq]
      constructor
      · rintro ⟨data, ⟨rfl, matched⟩, _⟩
        exact matched
      · intro matched
        exact ⟨leaf.value, ⟨rfl, matched⟩, by simp [live]⟩

/-- A subscription is found for the topics its filter matches. -/
theorem finds_of_matches {mT : Provider} {table : Table} (represents : mT.Represents table)
    (mode : mT.allowOverlapping = false) {topic filter : GoString} (free : WildcardFree topic)
    (matched : filterMatches filter topic = true) {s publishID : Hash} {p : SubscriptionParams}
    (subscribed : table.lookup (filter, s) = some p)
    (receives : NodeData.mayReceive publishID s ⟨s, p⟩ = true) :
    mT.FindsSubscriber topic publishID s := by
  have owed := subscriptionSearch_perm represents mode free publishID
  have receivesFlat : (SubscriptionOptions.nl p.Ops && s == publishID) = false := by
    rw [NodeData.mayReceive, bne, ← Bool.not_and] at receives
    exact Bool.not_eq_true' _ ▸ receives
  have due : Table.deliver topic publishID filter s p =
      some ⟨s, p.Ops, p.Granted, if 0 < p.ID then [p.ID] else []⟩ := by
    simp [Table.deliver, matched, receivesFlat]
  have entry := owed.mem_iff.mpr (List.mem_filterMap.mpr
    ⟨⟨(filter, s), p⟩, Table.mem_entries_iff.mpr subscribed, due⟩)
  exact ⟨_, entry, rfl⟩

/-- A subscription of a new subscriber is found for no other topics. -/
theorem findsSubscriber_iff {mT : Provider} {table : Table} (represents : mT.Represents table)
    (mode : mT.allowOverlapping = false) {topic : GoString} (free : WildcardFree topic)
    (filter : GoString) {s publishID : Hash} {p : SubscriptionParams}
    (fresh : ∀ other, mT.params other s = none)
    (receives : NodeData.mayReceive publishID s ⟨s, p⟩ = true) :
    (mT.subscriptionInsert filter s p).1.FindsSubscriber topic publishID s ↔
      filterMatches filter topic = true := by
  have inserted := represents.insert (params_subscriptionInsert mT filter s p)
  constructor
  · have owed := subscriptionSearch_perm inserted mode free publishID
    unfold FindsSubscriber
    simp only [owed.mem_iff, Table.deliveries, List.mem_filterMap, Table.deliver]
    rintro ⟨entry, ⟨⟨⟨other, sub⟩, q⟩, member, due⟩, rfl⟩
    rw [Table.mem_entries_iff] at member
    split at due
    · rename_i matched
      rw [Option.some.injEq] at due
      subst due
      simp only [Bool.and_eq_true] at matched
      by_cases same : other = filter
      · exact same ▸ matched.1
      · have distinct : (other, sub) ≠ (filter, sub) := by simp [same]
        rw [AList.lookup_insert_ne distinct, ← represents other sub, fresh other] at member
        simp at member
    · simp at due
  · intro matched
    exact finds_of_matches inserted mode free matched (AList.lookup_insert _) receives

/-- In every reachable trie, `retainSearch` returns the packets of the nodes it reads, and for a
filter and a topic with an unexpired retained message it takes that message exactly when the
live search would find a new subscription to the filter, if and only if the pair does not
drift. -/
theorem retained_agrees_with_live_iff (ops : List Op) (now : Time) {filter topic : GoString}
    (wellFormed : WellFormedFilter filter) (free : WildcardFree topic) {m : Publish}
    (held : (new.run ops).1.retainedFor topic now = some m) {s publishID : Hash}
    {p : SubscriptionParams} (fresh : ∀ other, (new.run ops).1.params other s = none)
    (receives : NodeData.mayReceive publishID s ⟨s, p⟩ = true) :
    let mT := (new.run ops).1
    (mT.retainSearch filter now).2 =
        Node.livePackets now (Node.retainVisited filter mT.root) ∧
      ((mT.TakesRetained filter topic now ↔
          (mT.subscriptionInsert filter s p).1.FindsSubscriber topic publishID s) ↔
        ¬Drifts filter topic) := by
  have represents : (new.run ops).1.Represents ((∅ : Table).run ops).1 :=
    (represents_run (represents_empty false) ops).1
  have mode : (new.run ops).1.allowOverlapping = false := allowOverlapping_run new ops
  refine ⟨Node.retainSearch_snd _ filter now, ?_⟩
  rw [takesRetained_iff held, findsSubscriber_iff represents mode free filter fresh receives,
    ← retainMatches_eq_filterMatches_iff wellFormed free]
  exact Bool.eq_iff_iff.symm

/-- A retained QoS 1 message with a one-byte payload. -/
def retainedSample (topic : GoString) : Publish :=
  { Publish.new ProtocolV311 with mFlags := 0x03, topic := topic, payload := [0x31] }

theorem fresh_of_retain (obj : RetainObject) (s : Hash) (filter : GoString) :
    (new.run [.retain obj]).1.params filter s = none :=
  (represents_run (represents_empty false) [.retain obj]).1 filter s

/-- The two searches agree on `a/+` and the topic `a/b`, which the filter matches. -/
theorem retained_agrees_with_live_single :
    let mT := (new.run [.retain (.publish (retainedSample (ascii "a/b")))]).1
    ¬Drifts (ascii "a/+") (ascii "a/b") ∧
      (mT.TakesRetained (ascii "a/+") (ascii "a/b") 0 ↔
        (mT.subscriptionInsert (ascii "a/+") 5 ⟨0, 0x01, 1⟩).1.FindsSubscriber (ascii "a/b") 9 5) := by
  intro mT
  have settled : ¬Drifts (ascii "a/+") (ascii "a/b") := by decide
  have held : mT.retainedFor (ascii "a/b") 0 = some (retainedSample (ascii "a/b")) := rfl
  exact ⟨settled, (retained_agrees_with_live_iff _ 0 (by decide) (by decide) held
    (fresh_of_retain _ 5) (by decide)).2.mpr settled⟩

/-- The message retained for `a//b` is returned for `a/#` although the live search for `a//b`
finds no subscription to `a/#`, and the one retained for `$SYS` is returned for `+` although
the live search for `$SYS` finds no subscription to `+`. -/
theorem retained_drifts_from_live :
    let inner := (new.run [.retain (.publish (retainedSample (ascii "a//b")))]).1
    let system := (new.run [.retain (.publish (retainedSample (ascii "$SYS")))]).1
    ((inner.retainSearch (ascii "a/#") 0).2 = [retainedSample (ascii "a//b")] ∧
        (inner.TakesRetained (ascii "a/#") (ascii "a//b") 0 ∧
          ¬(inner.subscriptionInsert (ascii "a/#") 5 ⟨0, 0x01, 1⟩).1.FindsSubscriber
            (ascii "a//b") 9 5)) ∧
      ((system.retainSearch (ascii "+") 0).2 = [retainedSample (ascii "$SYS")] ∧
        (system.TakesRetained (ascii "+") (ascii "$SYS") 0 ∧
          ¬(system.subscriptionInsert (ascii "+") 5 ⟨0, 0x01, 1⟩).1.FindsSubscriber
            (ascii "$SYS") 9 5)) := by
  intro inner system
  have innerHeld : inner.retainedFor (ascii "a//b") 0 = some (retainedSample (ascii "a//b")) := rfl
  have systemHeld : system.retainedFor (ascii "$SYS") 0 = some (retainedSample (ascii "$SYS")) :=
    rfl
  refine ⟨⟨rfl, (takesRetained_iff innerHeld).mpr (by decide), ?_⟩,
    ⟨rfl, (takesRetained_iff systemHeld).mpr (by decide), ?_⟩⟩
  · rintro ⟨entry, member, -⟩
    exact absurd member List.not_mem_nil
  · rintro ⟨entry, member, -⟩
    exact absurd member List.not_mem_nil

end Provider

end VolantMQ.Topics
