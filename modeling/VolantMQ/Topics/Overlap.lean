import VolantMQ.Topics.Refinement

/-!
# Merging overlapping subscriptions

In overlapping mode a search makes one entry for a subscriber and merges its further matching
subscriptions into it. A No Local subscription of the publisher must not count, but the test is
made only where the entry is created: a No Local subscription met later is merged like any other.

What becomes of one subscriber depends on its own subscriptions only, in the order in which the
search meets them, and this order can be read off the filters. The merge is therefore right
exactly if no No Local subscription of the publisher that stands behind one of its other
subscriptions in this order would show, by its identifier or a higher QoS.
-/

namespace VolantMQ.Topics

open Lib Packet

namespace Table

/-- A subscription of a subscriber that has to receive a message. -/
def Eligible (table : Table) (topic : GoString) (publishID s : Hash) (filter : GoString)
    (p : SubscriptionParams) : Prop :=
  table.lookup (filter, s) = some p ∧ filterMatches filter topic = true ∧
    NodeData.mayReceive publishID s ⟨s, p⟩ = true

/-- The subscriptions of a subscriber that have to receive a message. -/
def eligible (table : Table) (topic : GoString) (publishID s : Hash) : List SubscriptionParams :=
  (table.entries.filter fun entry => entry.1.2 == s && filterMatches entry.1.1 topic &&
    NodeData.mayReceive publishID s ⟨s, entry.2⟩).map Sigma.snd

/-- The subscription identifiers other than zero. -/
def identifiers (subs : List SubscriptionParams) : List UInt32 :=
  (subs.map SubscriptionParams.ID).filter fun id => 0 < id

/-- The entry made of some subscriptions of a subscriber: their highest QoS and all their
identifiers. -/
structure Merged (s : Hash) (subs : List SubscriptionParams) (entry : PublishEntry) : Prop where
  owner : entry.s = s
  reached : ∃ p ∈ subs, p.Granted = entry.qos
  highest : ∀ p ∈ subs, p.Granted ≤ entry.qos
  ids : entry.ids.Perm (identifiers subs)

/-- A search result has, for each subscriber with an eligible subscription and for no other, one
entry made of exactly its eligible subscriptions. -/
def MergedInto (table : Table) (topic : GoString) (publishID : Hash) (p : PublishEntries) : Prop :=
  ∀ s, (p.lookup s = none ∧ table.eligible topic publishID s = []) ∨
    ∃ entry, p.lookup s = some [entry] ∧ Merged s (table.eligible topic publishID s) entry

end Table

/-- Whether a search meets one of two matching filters before the other: `#` comes first, then
the literal level, then `+`, and the end of a filter comes before a `#` in its place. -/
def precedes : List Level → List Level → Bool
  | [], g => !g.isEmpty
  | _ :: _, [] => false
  | f :: fs, g :: gs => if f = g then precedes fs gs else f == MWC || g == SWC

theorem precedes_asymm {f g : List Level} (first : precedes f g = true) :
    precedes g f = false := by
  induction f generalizing g with
  | nil =>
      cases g with
      | nil => rfl
      | cons level levels => rfl
  | cons level levels ih =>
      cases g with
      | nil => simp [precedes] at first
      | cons other others =>
          simp only [precedes] at first ⊢
          by_cases same : level = other
          · subst same
            rw [if_pos rfl] at first ⊢
            exact ih first
          · rw [if_neg same] at first
            rw [if_neg (Ne.symm same)]
            simp only [Bool.or_eq_true, beq_iff_eq] at first
            rcases first with rfl | rfl
            · simp [Ne.symm same, show MWC ≠ SWC by decide]
            · simp [same, show SWC ≠ MWC by decide]

namespace Node

/-- The nodes below one child are met in the order of their paths if they are from there. -/
theorem pairwise_visited_below (level : Level) {levels : List Level} (child : Option Node)
    (ih : ∀ n : Node, (visited levels n).Pairwise fun a b => precedes a.1 b.1 = true) :
    (child.toList.flatMap fun n => (visited levels n).map fun entry =>
      (level :: entry.1, entry.2)).Pairwise fun a b => precedes a.1 b.1 = true := by
  cases child with
  | none => simp
  | some n =>
      have shifted := (ih n).map (S := fun a b => precedes a.1 b.1 = true)
        (fun entry => (level :: entry.1, entry.2)) (by
          intro a b before
          simpa [precedes] using before)
      simpa using shifted

theorem pairwise_visited {levels : List Level}
    (literal : ∀ level ∈ levels, level ≠ MWC ∧ level ≠ SWC) (root : Node) :
    (visited levels root).Pairwise fun a b => precedes a.1 b.1 = true := by
  induction levels generalizing root with
  | nil =>
      simp only [visited, visitChild]
      cases root.child? MWC <;> simp [precedes]
  | cons level levels ih =>
      have levelLiteral := literal level List.mem_cons_self
      have below := fun n : Node =>
        ih (fun other member => literal other (List.mem_cons_of_mem level member)) n
      have named := pairwise_visited_below level (root.child? level) below
      have single := pairwise_visited_below SWC (root.child? SWC) below
      have headed : ∀ {first : Level} {child : Option Node} {entry : List Level × NodeData},
          entry ∈ (child.toList.flatMap fun n => (visited levels n).map fun entry =>
            (first :: entry.1, entry.2)) → ∃ rest, entry.1 = first :: rest := by
        intro first child entry member
        rcases List.mem_flatMap.mp member with ⟨n, _, inner⟩
        rcases List.mem_map.mp inner with ⟨deeper, _, rfl⟩
        exact ⟨deeper.1, rfl⟩
      have wild : ∀ entry ∈ (if level.length ≠ 0 then root.visitChild MWC else []),
          entry.1 = [MWC] := by
        intro entry member
        split at member
        · exact (mem_visitChild.mp member).1
        · exact absurd member List.not_mem_nil
      rw [visited]
      refine List.pairwise_append.mpr ⟨List.pairwise_append.mpr ⟨?_, named, ?_⟩, single, ?_⟩
      · split
        · simp only [visitChild]
          cases root.child? MWC <;> simp
        · exact List.Pairwise.nil
      · intro a inWild b inNamed
        rcases headed inNamed with ⟨rest, path⟩
        rw [wild a inWild, path, precedes, if_neg (Ne.symm levelLiteral.1)]
        simp
      · intro a earlier b inSingle
        rcases headed inSingle with ⟨rest, path⟩
        rcases List.mem_append.mp earlier with inWild | inNamed
        · rw [wild a inWild, path, precedes, if_neg (by decide)]
          simp
        · rcases headed inNamed with ⟨deeper, other⟩
          rw [other, path, precedes, if_neg levelLiteral.2]
          simp

theorem pairwise_searchVisited {topic : GoString} (free : WildcardFree topic) (root : Node) :
    (searchVisited topic root).Pairwise fun a b => precedes a.1 b.1 = true := by
  have literal := levels_literal free
  unfold searchVisited
  cases topicLevels : split topic with
  | nil => exact List.Pairwise.nil
  | cons level levels =>
      rw [topicLevels] at literal
      simp only
      split
      · exact pairwise_visited literal root
      · apply pairwise_visited_below
        intro n
        exact pairwise_visited (fun other member => literal other (List.mem_cons_of_mem level member)) n

end Node

namespace NodeData

/-- One round of the loop of `overlappingSubscribers` for a subscription of `id`, as far as `id`
is concerned. -/
def mergeStep (publishID id : Hash) (held : Option (List PublishEntry)) (p : SubscriptionParams) :
    Option (List PublishEntry) :=
  match held with
  | some entries => some (mergeInto ⟨id, p⟩ entries)
  | none => if mayReceive publishID id ⟨id, p⟩ then some [acquire ⟨id, p⟩] else none

theorem lookup_addOverlapping (publishID : Hash) (p : PublishEntries)
    {sub : Σ _ : Hash, SubscribedEntry} (own : sub.2.s = sub.1) (id : Hash) :
    (addOverlapping publishID p sub).lookup id =
      if id = sub.1 then mergeStep publishID id (p.lookup id) sub.2.p else p.lookup id := by
  rcases sub with ⟨key, ⟨s, params⟩⟩
  simp only at own
  subst own
  by_cases same : id = s
  · subst same
    rw [if_pos rfl, addOverlapping]
    cases present : p.lookup id with
    | some entries => exact AList.lookup_insert p
    | none =>
        simp only [mergeStep]
        split
        · exact AList.lookup_insert p
        · exact present
  · rw [if_neg same, addOverlapping]
    cases p.lookup s with
    | some entries => exact AList.lookup_insert_ne same
    | none =>
        simp only
        split
        · exact AList.lookup_insert_ne same
        · rfl

theorem lookup_foldl_addOverlapping (publishID : Hash) (p : PublishEntries)
    {subs : List (Σ _ : Hash, SubscribedEntry)} (keys : subs.NodupKeys)
    (own : ∀ sub ∈ subs, sub.2.s = sub.1) (id : Hash) :
    (subs.foldl (addOverlapping publishID) p).lookup id =
      ((subs.dlookup id).map SubscribedEntry.p).toList.foldl (mergeStep publishID id)
        (p.lookup id) := by
  induction subs generalizing p with
  | nil => rfl
  | cons sub subs ih =>
      rcases List.nodupKeys_cons.mp keys with ⟨fresh, rest⟩
      have later := ih (addOverlapping publishID p sub) rest
        (fun other member => own other (List.mem_cons_of_mem sub member))
      rw [List.foldl_cons, later, lookup_addOverlapping publishID p (own sub List.mem_cons_self)]
      by_cases same : id = sub.1
      · subst same
        have absent : subs.dlookup sub.1 = none := List.dlookup_eq_none.mpr fresh
        have found : (sub :: subs).dlookup sub.1 = some sub.2 :=
          List.dlookup_cons_eq subs sub.1 sub.2
        rw [if_pos rfl, absent, found]
        rfl
      · have skipped : (sub :: subs).dlookup id = subs.dlookup id :=
          List.dlookup_cons_ne subs sub same
        rw [if_neg same, skipped]

theorem lookup_overlappingSubscribers (publishID : Hash) (p : PublishEntries) {data : NodeData}
    (own : ∀ sub entry, data.subs.lookup sub = some entry → entry.s = sub) (id : Hash) :
    (data.overlappingSubscribers publishID p).lookup id =
      ((data.subs.lookup id).map SubscribedEntry.p).toList.foldl (mergeStep publishID id)
        (p.lookup id) := by
  apply lookup_foldl_addOverlapping publishID p data.subs.nodupKeys
  intro sub member
  exact own sub.1 sub.2 (AList.mem_lookup_iff.mpr member)

end NodeData

namespace Node

/-- The subscriptions of one subscriber at visited nodes, each with its path. -/
def ownedBy (s : Hash) (entries : List (List Level × NodeData)) :
    List (List Level × SubscriptionParams) :=
  entries.filterMap fun entry =>
    (entry.2.subs.lookup s).map fun held => (entry.1, held.p)

theorem mem_ownedBy {s : Hash} {entries : List (List Level × NodeData)} {path : List Level}
    {p : SubscriptionParams} : (path, p) ∈ ownedBy s entries ↔ ((path, s), p) ∈ keyed entries := by
  rw [mem_keyed, ownedBy, List.mem_filterMap]
  simp only [Option.map_eq_some_iff, Prod.mk.injEq]
  constructor
  · rintro ⟨⟨path, data⟩, visit, held, look, rfl, rfl⟩
    exact ⟨data, visit, held, look, rfl⟩
  · rintro ⟨data, visit, held, look, rfl⟩
    exact ⟨(path, data), visit, held, look, rfl, rfl⟩

/-- The subscriptions of a subscriber are met in the order of their filters. -/
theorem pairwise_ownedBy {topic : GoString} (free : WildcardFree topic) (s : Hash) (root : Node) :
    (ownedBy s (searchVisited topic root)).Pairwise fun a b => precedes a.1 b.1 = true := by
  apply (pairwise_searchVisited free root).filterMap
  intro a b before first made second madeToo
  rcases Option.map_eq_some_iff.mp made with ⟨_, _, rfl⟩
  rcases Option.map_eq_some_iff.mp madeToo with ⟨_, _, rfl⟩
  exact before

/-- What a search has for a subscriber is a fold over its own subscriptions. -/
theorem lookup_collect (publishID : Hash) (entries : List (List Level × NodeData))
    (ok : ∀ entry ∈ entries, entry.2.Ok true) (p : PublishEntries) (id : Hash) :
    (collect publishID entries p).lookup id =
      ((ownedBy id entries).map Prod.snd).foldl (NodeData.mergeStep publishID id) (p.lookup id) := by
  induction entries generalizing p with
  | nil => rfl
  | cons entry entries ih =>
      have here := ok entry List.mem_cons_self
      have added : (entry.2.getSubscribers publishID p).lookup id =
          ((entry.2.subs.lookup id).map SubscribedEntry.p).toList.foldl
            (NodeData.mergeStep publishID id) (p.lookup id) := by
        rw [NodeData.getSubscribers, here.mode, if_pos rfl]
        exact NodeData.lookup_overlappingSubscribers publishID p here.filed id
      have rest := ih (fun other member => ok other (List.mem_cons_of_mem entry member))
        (entry.2.getSubscribers publishID p)
      rw [collect, List.foldl_cons, ← collect, rest, added]
      cases held : entry.2.subs.lookup id with
      | none => simp [ownedBy, held]
      | some sub => simp [ownedBy, held]

end Node

namespace NodeData

/-- The merge of one more subscription into an entry. -/
def mergeOne (first : PublishEntry) (p : SubscriptionParams) : PublishEntry :=
  { first with
    ids := if 0 < p.ID then first.ids ++ [p.ID] else first.ids
    qos := if first.qos < p.Granted then p.Granted else first.qos }

theorem merged_acquire (s : Hash) (p : SubscriptionParams) :
    Table.Merged s [p] (acquire ⟨s, p⟩) where
  owner := rfl
  reached := ⟨p, List.mem_singleton_self p, rfl⟩
  highest := by
    intro other member
    rw [List.mem_singleton] at member
    subst member
    exact UInt8.le_refl _
  ids := by
    rw [acquire, Table.identifiers]
    by_cases positive : 0 < p.ID <;> simp [positive]

theorem merged_mergeOne {s : Hash} {subs : List SubscriptionParams} {entry : PublishEntry}
    (merged : Table.Merged s subs entry) (p : SubscriptionParams) :
    Table.Merged s (subs ++ [p]) (mergeOne entry p) where
  owner := merged.owner
  reached := by
    simp only [NodeData.mergeOne]
    split
    · exact ⟨p, List.mem_append_right _ (List.mem_singleton_self p), rfl⟩
    · rcases merged.reached with ⟨q, member, equal⟩
      exact ⟨q, List.mem_append_left _ member, equal⟩
  highest := by
    intro other member
    simp only [NodeData.mergeOne]
    rcases List.mem_append.mp member with old | new
    · have before := merged.highest other old
      split
      · rename_i higher
        exact UInt8.le_trans before (UInt8.le_of_lt higher)
      · exact before
    · rw [List.mem_singleton] at new
      subst new
      split
      · exact UInt8.le_refl _
      · rename_i notHigher
        exact UInt8.not_lt.mp notHigher
  ids := by
    have before := merged.ids
    simp only [NodeData.mergeOne, Table.identifiers, List.map_append, List.filter_append] at before ⊢
    by_cases positive : 0 < p.ID
    · simpa [positive] using before.append_right [p.ID]
    · simpa [positive] using before

theorem merged_foldl {s : Hash} {subs : List SubscriptionParams} {entry : PublishEntry}
    (merged : Table.Merged s subs entry) (more : List SubscriptionParams) :
    Table.Merged s (subs ++ more) (more.foldl NodeData.mergeOne entry) := by
  induction more generalizing subs entry with
  | nil => simpa using merged
  | cons p more ih => simpa using ih (merged_mergeOne merged p)

/-- Whether the merge has not started at a subscription: it may not receive the message. -/
def ignored (publishID id : Hash) (p : SubscriptionParams) : Bool :=
  !mayReceive publishID id ⟨id, p⟩

theorem foldl_mergeStep_some (publishID id : Hash) (entry : PublishEntry)
    (subs : List SubscriptionParams) :
    subs.foldl (mergeStep publishID id) (some [entry]) =
      some [subs.foldl NodeData.mergeOne entry] := by
  induction subs generalizing entry with
  | nil => rfl
  | cons p subs ih => exact ih _

/-- The merge skips the first subscriptions that may not receive the message, and takes all
others. -/
theorem foldl_mergeStep (publishID id : Hash) (subs : List SubscriptionParams) :
    (subs.foldl (mergeStep publishID id) none = none ∧
        subs.dropWhile (ignored publishID id) = []) ∨
      ∃ entry, subs.foldl (mergeStep publishID id) none = some [entry] ∧
        Table.Merged id (subs.dropWhile (ignored publishID id)) entry := by
  induction subs with
  | nil => exact .inl ⟨rfl, rfl⟩
  | cons p subs ih =>
      rw [List.foldl_cons, mergeStep, List.dropWhile_cons, ignored]
      by_cases receives : mayReceive publishID id ⟨id, p⟩ = true
      · refine .inr ⟨subs.foldl NodeData.mergeOne (acquire ⟨id, p⟩), ?_, ?_⟩
        · rw [if_pos receives]
          exact foldl_mergeStep_some publishID id _ subs
        · simpa [receives] using merged_foldl (merged_acquire id p) subs
      · simpa [receives] using ih

end NodeData

namespace Table

theorem Merged.perm {s : Hash} {subs others : List SubscriptionParams} {entry : PublishEntry}
    (merged : Merged s subs entry) (same : subs.Perm others) : Merged s others entry where
  owner := merged.owner
  reached := by
    rcases merged.reached with ⟨p, member, equal⟩
    exact ⟨p, same.mem_iff.mp member, equal⟩
  highest := fun p member => merged.highest p (same.mem_iff.mpr member)
  ids := merged.ids.trans ((same.map SubscriptionParams.ID).filter _)

theorem length_identifiers_filter_le (chosen : SubscriptionParams → Bool)
    (subs : List SubscriptionParams) :
    (identifiers (subs.filter chosen)).length ≤ (identifiers subs).length :=
  (((List.filter_sublist).map SubscriptionParams.ID).filter _).length_le

/-- Leaving out subscriptions leaves all identifiers if and only if those left out have none. -/
theorem identifiers_filter_perm_iff (chosen : SubscriptionParams → Bool)
    (subs : List SubscriptionParams) :
    (identifiers subs).Perm (identifiers (subs.filter chosen)) ↔
      ∀ p ∈ subs, chosen p = false → p.ID = 0 := by
  induction subs with
  | nil => simp [identifiers]
  | cons p subs ih =>
      have shorter := length_identifiers_filter_le chosen subs
      rw [List.forall_mem_cons, ← ih]
      by_cases positive : 0 < p.ID
      · have some : p.ID ≠ 0 := fun zero => absurd positive (by rw [zero]; decide)
        cases taken : chosen p with
        | true => simp [identifiers, taken, positive]
        | false =>
            constructor
            · intro same
              have lengths := same.length_eq
              simp only [identifiers, List.map_cons, positive, List.filter_cons, taken,
                decide_true, if_true, List.length_cons] at lengths shorter
              simp only [Bool.false_eq_true, if_false] at lengths
              omega
            · intro both
              exact absurd (both.1 rfl) some
      · have zero : p.ID = 0 := by
          have := UInt32.not_lt.mp positive
          exact UInt32.le_antisymm this (UInt32.zero_le)
        cases taken : chosen p <;> simp [identifiers, taken, zero]

/-- An entry made of some subscriptions is made of a part of them if and only if the others have
no identifier and no higher QoS. -/
theorem merged_filter_iff {s : Hash} {subs : List SubscriptionParams} {entry : PublishEntry}
    (merged : Merged s subs entry) (chosen : SubscriptionParams → Bool) :
    Merged s (subs.filter chosen) entry ↔ ∀ p ∈ subs, chosen p = false →
      p.ID = 0 ∧ ∃ q ∈ subs.filter chosen, p.Granted ≤ q.Granted := by
  constructor
  · intro part p member left
    refine ⟨?_, ?_⟩
    · exact (identifiers_filter_perm_iff chosen subs).mp (merged.ids.symm.trans part.ids) p member left
    · rcases part.reached with ⟨q, inPart, equal⟩
      exact ⟨q, inPart, equal ▸ merged.highest p member⟩
  · intro spared
    refine ⟨merged.owner, ?_, ?_, ?_⟩
    · rcases merged.reached with ⟨p, member, equal⟩
      cases taken : chosen p with
      | true => exact ⟨p, List.mem_filter.mpr ⟨member, taken⟩, equal⟩
      | false =>
          rcases (spared p member taken).2 with ⟨q, inPart, higher⟩
          refine ⟨q, inPart, UInt8.le_antisymm ?_ (equal ▸ higher)⟩
          exact merged.highest q (List.mem_filter.mp inPart).1
    · exact fun p member => merged.highest p (List.mem_filter.mp member).1
    · apply merged.ids.trans
      rw [identifiers_filter_perm_iff]
      exact fun p member left => (spared p member left).1

/-- The matching subscriptions of a subscriber, each with the levels of its filter. -/
def ownedBy (table : Table) (topic : GoString) (s : Hash) :
    List (List Level × SubscriptionParams) :=
  (table.entries.filter fun entry => entry.1.2 == s && filterMatches entry.1.1 topic).map
    fun entry => (split entry.1.1, entry.2)

theorem mem_ownedBy {table : Table} {topic : GoString} {s : Hash} {path : List Level}
    {p : SubscriptionParams} :
    (path, p) ∈ table.ownedBy topic s ↔ ∃ filter, split filter = path ∧
      table.lookup (filter, s) = some p ∧ filterMatches filter topic = true := by
  simp only [ownedBy, List.mem_map, List.mem_filter, Bool.and_eq_true, beq_iff_eq, Prod.mk.injEq]
  constructor
  · rintro ⟨⟨⟨filter, sub⟩, params⟩, ⟨member, rfl, matched⟩, rfl, rfl⟩
    exact ⟨filter, rfl, mem_entries_iff.mp member, matched⟩
  · rintro ⟨filter, rfl, look, matched⟩
    exact ⟨⟨(filter, s), p⟩, ⟨mem_entries_iff.mpr look, rfl, matched⟩, rfl, rfl⟩

theorem nodup_ownedBy (table : Table) (topic : GoString) (s : Hash) :
    (table.ownedBy topic s).Nodup := by
  have entries : table.entries.Nodup := table.nodupKeys.nodup
  apply (entries.filter _).map_on
  intro left leftMember right rightMember equation
  simp only [List.mem_filter, Bool.and_eq_true, beq_iff_eq] at leftMember rightMember
  rcases left with ⟨⟨leftFilter, leftSub⟩, leftParams⟩
  rcases right with ⟨⟨rightFilter, rightSub⟩, rightParams⟩
  simp only [Prod.mk.injEq] at equation
  rcases equation with ⟨sameLevels, rfl⟩
  rcases split_injective sameLevels with rfl
  obtain rfl : leftSub = rightSub := leftMember.2.1.trans rightMember.2.1.symm
  rfl

theorem eligible_eq (table : Table) (topic : GoString) (publishID s : Hash) :
    table.eligible topic publishID s =
      ((table.ownedBy topic s).map Prod.snd).filter fun p =>
        NodeData.mayReceive publishID s ⟨s, p⟩ := by
  rw [eligible, ownedBy, List.map_map, List.filter_map, List.filter_filter]
  congr 1
  apply List.filter_congr
  intro entry _
  simp [Bool.and_comm]

theorem mem_eligible {table : Table} {topic : GoString} {publishID s : Hash}
    {p : SubscriptionParams} :
    p ∈ table.eligible topic publishID s ↔
      ∃ filter, table.Eligible topic publishID s filter p := by
  rw [eligible_eq, List.mem_filter, List.mem_map]
  constructor
  · rintro ⟨⟨⟨path, q⟩, member, rfl⟩, receives⟩
    rcases mem_ownedBy.mp member with ⟨filter, _, look, matched⟩
    exact ⟨filter, look, matched, receives⟩
  · rintro ⟨filter, look, matched, receives⟩
    exact ⟨⟨(split filter, p), mem_ownedBy.mpr ⟨filter, rfl, look, matched⟩, rfl⟩, receives⟩

/-- No Local subscriptions of the publisher that a search meets after one of its eligible
subscriptions do not show: they have no identifier, and some eligible subscription has at least
their QoS. -/
def NoLocalUnseen (table : Table) (topic : GoString) (publishID : Hash) : Prop :=
  ∀ late p, table.lookup (late, publishID) = some p → filterMatches late topic = true →
    SubscriptionOptions.nl p.Ops = true →
    (∃ early q, table.Eligible topic publishID publishID early q ∧
      precedes (split early) (split late) = true) →
    p.ID = 0 ∧ ∃ other q, table.Eligible topic publishID publishID other q ∧ p.Granted ≤ q.Granted

end Table

/-- In an ordered list, what is skipped by a test is kept by `dropWhile` if something the test
does not skip comes before it. -/
theorem mem_dropWhile_iff {α : Type} {related : α → α → Prop} {l : List α}
    (ordered : l.Pairwise related) (asymm : ∀ a b, related a b → ¬related b a) {skip : α → Bool}
    {x : α} (skipped : skip x = true) :
    x ∈ l.dropWhile skip ↔ x ∈ l ∧ ∃ y ∈ l, skip y = false ∧ related y x := by
  induction l with
  | nil => simp
  | cons a l ih =>
      rcases List.pairwise_cons.mp ordered with ⟨first, rest⟩
      rw [List.dropWhile_cons]
      cases here : skip a with
      | true =>
          rw [if_pos rfl, ih rest]
          constructor
          · rintro ⟨member, y, inRest, taken, before⟩
            exact ⟨List.mem_cons_of_mem a member, y, List.mem_cons_of_mem a inRest, taken, before⟩
          · rintro ⟨member, y, inList, taken, before⟩
            have later : y ∈ l := by
              rcases List.mem_cons.mp inList with rfl | later
              · rw [here] at taken
                exact absurd taken (by decide)
              · exact later
            refine ⟨?_, y, later, taken, before⟩
            rcases List.mem_cons.mp member with rfl | inRest
            · exact absurd (first y later) (asymm y x before)
            · exact inRest
      | false =>
          rw [if_neg (by simp)]
          constructor
          · intro member
            refine ⟨member, a, List.mem_cons_self, here, ?_⟩
            rcases List.mem_cons.mp member with rfl | inRest
            · rw [here] at skipped
              exact absurd skipped (by decide)
            · exact first x inRest
          · exact fun both => both.1

namespace Provider

section Merge

variable {mT : Provider} {table : Table} {topic : GoString}

/-- The subscriptions of a subscriber that a search meets are its matching ones. -/
theorem owned_perm (represents : mT.Represents table) (free : WildcardFree topic) (s : Hash) :
    (Node.ownedBy s (Node.searchVisited topic mT.root)).Perm (table.ownedBy topic s) := by
  have ordered := Node.pairwise_ownedBy free s mT.root
  have distinct : (Node.ownedBy s (Node.searchVisited topic mT.root)).Nodup := by
    apply ordered.imp
    rintro a b before rfl
    exact absurd before (by rw [precedes_asymm before]; decide)
  apply (List.perm_ext_iff_of_nodup distinct (table.nodup_ownedBy topic s)).mpr
  rintro ⟨path, p⟩
  rw [Node.mem_ownedBy, (keyed_searchVisited represents free).mem_iff, Table.mem_matching,
    Table.mem_ownedBy]

theorem lookup_subscriptionSearch (mode : mT.allowOverlapping = true) (free : WildcardFree topic)
    (publishID s : Hash) :
    (mT.subscriptionSearch topic publishID).lookup s =
      ((Node.ownedBy s (Node.searchVisited topic mT.root)).map Prod.snd).foldl
        (NodeData.mergeStep publishID s) none := by
  rw [subscriptionSearch, Node.subscriptionSearch_eq_collect, Node.lookup_collect]
  · rfl
  · intro entry member
    exact mode ▸ ok_of_visited free member

/-- What is dropped in front of the merge is not eligible. -/
theorem filter_dropWhile_ignored (publishID s : Hash) (subs : List SubscriptionParams) :
    (subs.dropWhile (NodeData.ignored publishID s)).filter
        (fun p => NodeData.mayReceive publishID s ⟨s, p⟩) =
      subs.filter fun p => NodeData.mayReceive publishID s ⟨s, p⟩ := by
  induction subs with
  | nil => rfl
  | cons p subs ih =>
      rw [List.dropWhile_cons, NodeData.ignored]
      cases receives : NodeData.mayReceive publishID s ⟨s, p⟩ <;> simp [receives, ih]

/-- A subscriber gets the right entry if and only if the subscriptions that are merged although
they are not eligible do not show. -/
theorem mergedInto_iff_dropWhile (represents : mT.Represents table)
    (mode : mT.allowOverlapping = true) (free : WildcardFree topic) (publishID s : Hash) :
    (((mT.subscriptionSearch topic publishID).lookup s = none ∧
          table.eligible topic publishID s = []) ∨
        ∃ entry, (mT.subscriptionSearch topic publishID).lookup s = some [entry] ∧
          Table.Merged s (table.eligible topic publishID s) entry) ↔
      ∀ p ∈ ((Node.ownedBy s (Node.searchVisited topic mT.root)).map Prod.snd).dropWhile
          (NodeData.ignored publishID s),
        NodeData.mayReceive publishID s ⟨s, p⟩ = false →
          p.ID = 0 ∧ ∃ q ∈ table.eligible topic publishID s, p.Granted ≤ q.Granted := by
  have perm := ((owned_perm represents free s).map Prod.snd).filter
    fun p => NodeData.mayReceive publishID s ⟨s, p⟩
  rw [← Table.eligible_eq, ← filter_dropWhile_ignored] at perm
  rw [lookup_subscriptionSearch mode free]
  generalize (Node.ownedBy s (Node.searchVisited topic mT.root)).map Prod.snd = subs at perm ⊢
  have members : ∀ p : SubscriptionParams,
      (∃ q ∈ table.eligible topic publishID s, p.Granted ≤ q.Granted) ↔
      ∃ q ∈ (subs.dropWhile (NodeData.ignored publishID s)).filter
        (fun p => NodeData.mayReceive publishID s ⟨s, p⟩), p.Granted ≤ q.Granted := by
    intro p
    simp only [perm.mem_iff]
  rcases NodeData.foldl_mergeStep publishID s subs with ⟨absent, skipped⟩ | ⟨entry, found, merged⟩
  · rw [skipped] at perm ⊢
    have none : table.eligible topic publishID s = [] := List.nil_perm.mp perm
    simp [absent, none]
  · simp only [members]
    rw [← Table.merged_filter_iff merged]
    constructor
    · rintro (⟨absent, _⟩ | ⟨other, same, whole⟩)
      · rw [found] at absent
        exact absurd absent (by simp)
      · rw [found] at same
        simp only [Option.some.injEq, List.cons.injEq, and_true] at same
        subst same
        exact whole.perm perm.symm
    · intro part
      exact .inr ⟨entry, found, part.perm perm⟩

/-- The merge takes a subscription of the publisher although it is No Local if and only if it has
met an eligible one before. -/
theorem taken_iff (represents : mT.Represents table) (free : WildcardFree topic) (publishID : Hash)
    {p : SubscriptionParams} (noLocal : SubscriptionOptions.nl p.Ops = true) :
    p ∈ ((Node.ownedBy publishID (Node.searchVisited topic mT.root)).map Prod.snd).dropWhile
        (NodeData.ignored publishID publishID) ↔
      ∃ late, table.lookup (late, publishID) = some p ∧ filterMatches late topic = true ∧
        ∃ early q, table.Eligible topic publishID publishID early q ∧
          precedes (split early) (split late) = true := by
  have owned : ∀ path q, (path, q) ∈ Node.ownedBy publishID (Node.searchVisited topic mT.root) ↔
      ∃ filter, split filter = path ∧ table.lookup (filter, publishID) = some q ∧
        filterMatches filter topic = true := by
    intro path q
    rw [(owned_perm represents free publishID).mem_iff, Table.mem_ownedBy]
  have asymm : ∀ a b : List Level × SubscriptionParams, precedes a.1 b.1 = true →
      ¬precedes b.1 a.1 = true := by
    intro a b before
    rw [precedes_asymm before]
    decide
  have skipped : ∀ path : List Level,
      (NodeData.ignored publishID publishID ∘ Prod.snd) (path, p) = true := by
    intro path
    simp [NodeData.ignored, NodeData.mayReceive, noLocal]
  rw [List.dropWhile_map, List.mem_map]
  constructor
  · rintro ⟨⟨path, p⟩, kept, rfl⟩
    rw [mem_dropWhile_iff (Node.pairwise_ownedBy free publishID mT.root) asymm (skipped path)] at kept
    rcases kept with ⟨met, ⟨earlyPath, q⟩, earlyMet, receives, before⟩
    rcases (owned _ _).mp met with ⟨late, rfl, look, matched⟩
    rcases (owned _ _).mp earlyMet with ⟨early, rfl, earlyLook, earlyMatched⟩
    refine ⟨late, look, matched, early, q, ⟨earlyLook, earlyMatched, ?_⟩, before⟩
    simpa [NodeData.ignored] using receives
  · rintro ⟨late, look, matched, early, q, ⟨earlyLook, earlyMatched, receives⟩, before⟩
    refine ⟨(split late, p), ?_, rfl⟩
    rw [mem_dropWhile_iff (Node.pairwise_ownedBy free publishID mT.root) asymm (skipped _)]
    refine ⟨(owned _ _).mpr ⟨late, rfl, look, matched⟩, (split early, q),
      (owned _ _).mpr ⟨early, rfl, earlyLook, earlyMatched⟩, ?_, before⟩
    simp [NodeData.ignored, receives]

end Merge

/-- In overlapping mode, after every history of operations, a search for a topic without wildcard
characters yields for each subscriber exactly the entry made of its eligible subscriptions, if and
only if the No Local subscriptions of the publisher that it meets too late do not show. -/
theorem subscriptionSearch_merges_iff (ops : List Op) {topic : GoString}
    (free : WildcardFree topic) (publishID : Hash) :
    let mT := ((empty true).run ops).1
    let table := ((∅ : Table).run ops).1
    table.MergedInto topic publishID (mT.subscriptionSearch topic publishID) ↔
      table.NoLocalUnseen topic publishID := by
  intro mT table
  have represents : mT.Represents table := (represents_run (represents_empty true) ops).1
  have mode : mT.allowOverlapping = true := allowOverlapping_run (empty true) ops
  have single := mergedInto_iff_dropWhile represents mode free publishID
  have refusedIff : ∀ p, NodeData.mayReceive publishID publishID ⟨publishID, p⟩ = false ↔
      SubscriptionOptions.nl p.Ops = true := by
    intro p
    simp [NodeData.mayReceive]
  constructor
  · intro merged late p look matched noLocal earlier
    have taken := (taken_iff represents free publishID noLocal).mpr ⟨late, look, matched, earlier⟩
    rcases (single publishID).mp (merged publishID) p taken ((refusedIff p).mpr noLocal) with
      ⟨zero, q, member, higher⟩
    rcases Table.mem_eligible.mp member with ⟨other, isEligible⟩
    exact ⟨zero, other, q, isEligible, higher⟩
  · intro unseen s
    rw [single s]
    intro p taken refused
    by_cases publisher : s = publishID
    · subst publisher
      have noLocal := (refusedIff p).mp refused
      rcases (taken_iff represents free s noLocal).mp taken with ⟨late, look, matched, earlier⟩
      rcases unseen late p look matched noLocal earlier with ⟨zero, other, q, isEligible, higher⟩
      exact ⟨zero, q, Table.mem_eligible.mpr ⟨other, isEligible⟩, higher⟩
    · -- only the publisher's own subscriptions can be refused
      simp [NodeData.mayReceive, publisher] at refused

/-- Two subscriptions of subscriber 2, the second of them No Local with QoS 2 and identifier 7. -/
def overlappingSample : List Op :=
  [.subscribe (ascii "a/b") 2 ⟨3, 0x01, 0⟩ 0, .subscribe (ascii "a/+") 2 ⟨7, 0x06, 0⟩ 0]

/-- For another publisher the two are merged as they should be. -/
theorem overlappingSample_merged :
    let table := ((∅ : Table).run overlappingSample).1
    WildcardFree (ascii "a/b") ∧ table.MergedInto (ascii "a/b") 5
      (((empty true).run overlappingSample).1.subscriptionSearch (ascii "a/b") 5) := by
  intro table
  have free : WildcardFree (ascii "a/b") := by decide
  refine ⟨free, (subscriptionSearch_merges_iff overlappingSample free 5).mpr ?_⟩
  intro late p look
  have absent : ∀ entry ∈ table.entries, entry.1.2 ≠ 5 := by decide
  exact absurd rfl (absent _ (Table.mem_entries_iff.mpr look))

/-- What subscriber 2 publishes itself comes back to it with the QoS and the identifier of its No
Local subscription. -/
theorem overlappingSample_not_merged :
    ¬((∅ : Table).run overlappingSample).1.MergedInto (ascii "a/b") 2
      (((empty true).run overlappingSample).1.subscriptionSearch (ascii "a/b") 2) := by
  intro merged
  have found : (((empty true).run overlappingSample).1.subscriptionSearch (ascii "a/b") 2).lookup 2 =
      some [⟨2, 0x01, 2, [3, 7]⟩] := by decide
  rcases merged 2 with ⟨absent, _⟩ | ⟨entry, same, whole⟩
  · rw [found] at absent
    exact absurd absent (by simp)
  · rw [found] at same
    simp only [Option.some.injEq, List.cons.injEq, and_true] at same
    have lengths := whole.ids.length_eq
    rw [← same] at lengths
    revert lengths
    decide

end Provider

end VolantMQ.Topics
