import VolantMQ.Topics.Table

/-!
# The nodes visited by a subscription search

`subscriptionSearch` walks the trie and calls `getSubscribers` at the nodes it reaches. This
file separates the walk from what is done at a node: the search is a fold of `getSubscribers`
over the list of visited nodes, each with its path, and that list holds exactly the nodes whose
path matches the topic, each once.
-/

namespace VolantMQ.Topics

open Lib Packet

namespace Node

/-- The child under a level as a visited node. -/
def visitChild (root : Node) (level : Level) : List (List Level × NodeData) :=
  (root.child? level).toList.map fun n => ([level], n.value)

/-- The nodes at which `subscriptionRecurseSearch` collects subscribers, in order. -/
def visited : List Level → Node → List (List Level × NodeData)
  | [], root => ([], root.value) :: root.visitChild MWC
  | level :: levels, root =>
      (if level.length ≠ 0 then root.visitChild MWC else []) ++
        ((root.child? level).toList.flatMap fun n =>
          (visited levels n).map fun entry => (level :: entry.1, entry.2)) ++
        (root.child? SWC).toList.flatMap fun n =>
          (visited levels n).map fun entry => (SWC :: entry.1, entry.2)

/-- The nodes at which `subscriptionSearch` collects subscribers, in order. -/
def searchVisited (topic : GoString) (root : Node) : List (List Level × NodeData) :=
  match split topic with
  | [] => []
  | level :: levels =>
      if !isSystem level then visited (level :: levels) root
      else
        (root.child? level).toList.flatMap fun n =>
          (visited levels n).map fun entry => (level :: entry.1, entry.2)

/-- Collect the subscribers of visited nodes one after the other. -/
def collect (publishID : Hash) (entries : List (List Level × NodeData)) (p : PublishEntries) :
    PublishEntries :=
  entries.foldl (fun p entry => entry.2.getSubscribers publishID p) p

@[simp]
theorem collect_nil (publishID : Hash) (p : PublishEntries) : collect publishID [] p = p := rfl

theorem collect_append (publishID : Hash) (left right : List (List Level × NodeData))
    (p : PublishEntries) :
    collect publishID (left ++ right) p = collect publishID right (collect publishID left p) := by
  simp [collect]

theorem collect_map_path (publishID : Hash) (level : Level)
    (entries : List (List Level × NodeData)) (p : PublishEntries) :
    collect publishID (entries.map fun entry => (level :: entry.1, entry.2)) p =
      collect publishID entries p := by
  simp [collect, List.foldl_map]

/-- Searching below the child under one level, where `ih` is the claim for the remaining
levels. -/
theorem searchBelow_eq_collect {publishID : Hash} {levels : List Level}
    (ih : ∀ (n : Node) (p : PublishEntries), subscriptionRecurseSearch publishID levels n p =
      collect publishID (visited levels n) p)
    (root : Node) (level : Level) (p : PublishEntries) :
    (match root.child? level with
      | some n => subscriptionRecurseSearch publishID levels n p
      | none => p) =
      collect publishID ((root.child? level).toList.flatMap fun n =>
        (visited levels n).map fun entry => (level :: entry.1, entry.2)) p := by
  cases root.child? level with
  | none => rfl
  | some n => simp [ih, collect_map_path]

theorem subscriptionRecurseSearch_eq_collect (publishID : Hash) (levels : List Level) (root : Node)
    (p : PublishEntries) :
    subscriptionRecurseSearch publishID levels root p =
      collect publishID (visited levels root) p := by
  induction levels generalizing root p with
  | nil =>
      simp only [subscriptionRecurseSearch, visited, visitChild]
      cases root.child? MWC <;> simp [collect]
  | cons level levels ih =>
      rw [visited, collect_append, collect_append, ← searchBelow_eq_collect ih,
        ← searchBelow_eq_collect ih, subscriptionRecurseSearch]
      have wildcard : (match root.child? MWC with
          | some n => if level.length ≠ 0 then n.value.getSubscribers publishID p else p
          | none => p) =
          collect publishID (if level.length ≠ 0 then root.visitChild MWC else []) p := by
        simp only [visitChild]
        cases root.child? MWC <;> by_cases empty : level.length ≠ 0 <;> simp [collect, empty]
      exact wildcard ▸ rfl

/-- A search is the walk followed by the collection. -/
theorem subscriptionSearch_eq_collect (root : Node) (topic : GoString) (publishID : Hash)
    (p : PublishEntries) :
    subscriptionSearch root topic publishID p = collect publishID (searchVisited topic root) p := by
  unfold subscriptionSearch searchVisited
  cases split topic with
  | nil => rfl
  | cons level levels =>
      simp only
      split
      · exact subscriptionRecurseSearch_eq_collect publishID _ root p
      · cases root.child? level with
        | none => rfl
        | some n => simp [subscriptionRecurseSearch_eq_collect, collect_map_path]

theorem mem_visitChild {root : Node} {level : Level} {path : List Level} {data : NodeData} :
    (path, data) ∈ root.visitChild level ↔
      path = [level] ∧ (root.find? path).map Trie.value = some data := by
  simp only [visitChild, List.mem_map, Option.mem_toList, Prod.mk.injEq]
  constructor
  · rintro ⟨n, found, rfl, rfl⟩
    simp [Trie.find?_cons, found]
  · rintro ⟨rfl, reached⟩
    cases found : root.child? level with
    | none => simp [Trie.find?_cons, found] at reached
    | some n =>
        refine ⟨n, rfl, rfl, ?_⟩
        simpa [Trie.find?_cons, found] using reached

/-- What is visited below the child under one level. -/
theorem mem_visited_below {root : Node} {level : Level} {levels path : List Level}
    {data : NodeData}
    (ih : ∀ (n : Node) (rest : List Level), (rest, data) ∈ visited levels n ↔
      (n.find? rest).map Trie.value = some data ∧ matchLevels rest levels = true) :
    (path, data) ∈ ((root.child? level).toList.flatMap fun n =>
        (visited levels n).map fun entry => (level :: entry.1, entry.2)) ↔
      ∃ rest, path = level :: rest ∧ (root.find? path).map Trie.value = some data ∧
        matchLevels rest levels = true := by
  simp only [List.mem_flatMap, Option.mem_toList, List.mem_map, Prod.mk.injEq]
  constructor
  · rintro ⟨n, found, ⟨rest, other⟩, member, rfl, rfl⟩
    rw [ih] at member
    refine ⟨rest, rfl, ?_, member.2⟩
    simpa [Trie.find?_cons, found] using member.1
  · rintro ⟨rest, rfl, reached, matched⟩
    cases found : root.child? level with
    | none => simp [Trie.find?_cons, found] at reached
    | some n =>
        refine ⟨n, rfl, (rest, data), ?_, rfl, rfl⟩
        rw [ih]
        exact ⟨by simpa [Trie.find?_cons, found] using reached, matched⟩

theorem mem_visited {levels : List Level} (literal : ∀ level ∈ levels, level ≠ MWC ∧ level ≠ SWC)
    {root : Node} {path : List Level} {data : NodeData} :
    (path, data) ∈ visited levels root ↔
      (root.find? path).map Trie.value = some data ∧ matchLevels path levels = true := by
  induction levels generalizing root path with
  | nil =>
      simp only [visited, List.mem_cons, mem_visitChild, Prod.mk.injEq]
      constructor
      · rintro (⟨rfl, rfl⟩ | ⟨rfl, reached⟩)
        · simp [matchLevels]
        · exact ⟨reached, by simp [matchLevels]⟩
      · rintro ⟨reached, matched⟩
        rcases path with _ | ⟨first, rest⟩
        · left
          simp only [Trie.find?_nil, Option.map_some, Option.some.injEq] at reached
          exact ⟨rfl, reached.symm⟩
        · right
          simp only [matchLevels, Bool.and_eq_true, beq_iff_eq, List.isEmpty_iff] at matched
          rcases matched with ⟨rfl, rfl⟩
          exact ⟨rfl, reached⟩
  | cons level levels ih =>
      have levelLiteral := literal level (by simp)
      have below := fun (n : Node) (rest : List Level) =>
        @ih (fun other member => literal other (by simp [member])) n rest
      simp only [visited, List.mem_append, mem_visited_below below]
      constructor
      · rintro ((wildcard | ⟨rest, rfl, reached, matched⟩) | ⟨rest, rfl, reached, matched⟩)
        · split at wildcard
          · rename_i nonempty
            rw [mem_visitChild] at wildcard
            rcases wildcard with ⟨rfl, reached⟩
            exact ⟨reached, by simpa [matchLevels] using nonempty⟩
          · simp at wildcard
        · exact ⟨reached, by simp [matchLevels, levelLiteral.1, matched]⟩
        · exact ⟨reached, by simp [matchLevels, matched, show SWC ≠ MWC by decide]⟩
      · rintro ⟨reached, matched⟩
        rcases path with _ | ⟨first, rest⟩
        · simp [matchLevels] at matched
        · simp only [matchLevels] at matched
          split at matched
          · rename_i isWildcard
            subst isWildcard
            simp only [Bool.and_eq_true, List.isEmpty_iff, bne_iff_ne] at matched
            rcases matched with ⟨rfl, nonempty⟩
            left; left
            rw [if_pos nonempty, mem_visitChild]
            exact ⟨rfl, reached⟩
          · simp only [Bool.and_eq_true, Bool.or_eq_true, beq_iff_eq] at matched
            rcases matched with ⟨rfl | rfl, restMatched⟩
            · right
              exact ⟨rest, rfl, reached, restMatched⟩
            · left; right
              exact ⟨rest, rfl, reached, restMatched⟩

theorem nodup_visited_below {level : Level} {levels : List Level} (child : Option Node)
    (ih : ∀ n : Node, ((visited levels n).map Prod.fst).Nodup) :
    ((child.toList.flatMap fun n =>
      (visited levels n).map fun entry => (level :: entry.1, entry.2)).map Prod.fst).Nodup := by
  cases child with
  | none => simp
  | some n =>
      have shifted := (ih n).map (f := fun path => level :: path)
        (fun left right equation => by simpa using equation)
      simpa [List.map_map, Function.comp_def] using shifted

theorem head_of_mem_visited_below {level : Level} {levels path : List Level} {child : Option Node}
    (member : path ∈ (child.toList.flatMap fun n =>
      (visited levels n).map fun entry => (level :: entry.1, entry.2)).map Prod.fst) :
    path.head? = some level := by
  simp only [List.map_flatMap, List.map_map, List.mem_flatMap, List.mem_map,
    Function.comp_apply] at member
  rcases member with ⟨n, _, entry, _, rfl⟩
  rfl

theorem nodup_visited {levels : List Level}
    (literal : ∀ level ∈ levels, level ≠ MWC ∧ level ≠ SWC) (root : Node) :
    ((visited levels root).map Prod.fst).Nodup := by
  induction levels generalizing root with
  | nil =>
      simp only [visited, visitChild]
      cases root.child? MWC <;> simp
  | cons level levels ih =>
      have levelLiteral := literal level (by simp)
      have below := fun n : Node => ih (fun other member => literal other (by simp [member])) n
      simp only [visited, List.map_append]
      refine List.Nodup.append (List.Nodup.append ?_ (nodup_visited_below _ below) ?_)
        (nodup_visited_below _ below) ?_
      · split
        · simp only [visitChild]
          cases root.child? MWC <;> simp
        · simp
      · rw [List.disjoint_left]
        intro path first second
        have secondHead := head_of_mem_visited_below second
        split at first
        · simp only [visitChild, List.map_map, List.mem_map] at first
          rcases first with ⟨n, _, rfl⟩
          simp only [Function.comp_apply, List.head?_cons, Option.some.injEq] at secondHead
          exact levelLiteral.1 secondHead.symm
        · simp at first
      · rw [List.disjoint_left]
        intro path first second
        have secondHead := head_of_mem_visited_below second
        rcases List.mem_append.mp first with wildcard | named
        · split at wildcard
          · simp only [visitChild, List.map_map, List.mem_map] at wildcard
            rcases wildcard with ⟨n, _, rfl⟩
            simp [MWC, SWC] at secondHead
          · simp at wildcard
        · have firstHead := head_of_mem_visited_below named
          rw [secondHead, Option.some.injEq] at firstHead
          exact levelLiteral.2 firstHead.symm

/-- A search visits exactly the nodes whose path matches the topic. -/
theorem mem_searchVisited {topic : GoString} (free : WildcardFree topic) {root : Node}
    {path : List Level} {data : NodeData} :
    (path, data) ∈ searchVisited topic root ↔
      (root.find? path).map Trie.value = some data ∧ pathMatches path (split topic) = true := by
  have literal := levels_literal free
  unfold searchVisited
  cases topicLevels : split topic with
  | nil => exact absurd topicLevels (split_ne_nil topic)
  | cons level levels =>
      rw [topicLevels] at literal
      simp only
      by_cases system : isSystem level = true
      · have below := fun (n : Node) (path : List Level) =>
          @mem_visited levels (fun other member => literal other (by simp [member])) n path data
        simp only [system, Bool.not_true, Bool.false_eq_true, if_false, mem_visited_below below]
        constructor
        · rintro ⟨rest, rfl, reached, matched⟩
          exact ⟨reached, by simp [pathMatches, system, matched]⟩
        · rintro ⟨reached, matched⟩
          cases path with
          | nil => simp [pathMatches] at matched
          | cons first rest =>
              simp only [pathMatches, system, if_true, Bool.and_eq_true, beq_iff_eq] at matched
              rcases matched with ⟨rfl, restMatched⟩
              exact ⟨rest, rfl, reached, restMatched⟩
      · simp only [system, Bool.not_false, if_true]
        rw [mem_visited literal]
        cases path with
        | nil => simp [pathMatches, matchLevels]
        | cons first rest => simp [pathMatches, system]

theorem nodup_searchVisited {topic : GoString} (free : WildcardFree topic) (root : Node) :
    ((searchVisited topic root).map Prod.fst).Nodup := by
  have literal := levels_literal free
  unfold searchVisited
  cases topicLevels : split topic with
  | nil => simp
  | cons level levels =>
      rw [topicLevels] at literal
      simp only
      split
      · exact nodup_visited literal root
      · exact nodup_visited_below _ fun n =>
          nodup_visited (fun other member => literal other (by simp [member])) n

end Node

end VolantMQ.Topics
