import Mathlib.Algebra.Order.BigOperators.Group.List
import Mathlib.Algebra.Order.Ring.Nat
import VolantMQ.Lib.Trie

/-!
# Tries without dead nodes

A node of a trie is dead if its value is and it has no children. A trie is pruned if no node below
its root is dead. Inserting a value that is not dead keeps a trie pruned, and so does
`pruneWith`, whatever it does to the value at the end of its path. An update that only changes
values keeps a trie pruned exactly if it leaves no childless node with a dead value, which is said
here in terms of paths.

In a pruned trie every node lies on the way to a value that is not dead, so these values bound the
number of nodes.
-/

namespace Lib

universe u v

namespace Trie

variable {κ : Type u} {ν : Type v} {dead : ν → Bool}

/-- No node below the root is dead. -/
inductive Pruned (dead : ν → Bool) : Trie κ ν → Prop where
  | node {content : ν} {branches : List (Σ _ : κ, Trie κ ν)}
      (alive : ∀ branch ∈ branches, branch.2.isDead dead = false)
      (below : ∀ branch ∈ branches, Pruned dead branch.2) :
      Pruned dead (node content branches)

theorem Pruned.alive {trie : Trie κ ν} (pruned : trie.Pruned dead) :
    ∀ branch ∈ trie.children, branch.2.isDead dead = false := by
  cases pruned with
  | node alive below => exact alive

theorem Pruned.branch {trie : Trie κ ν} (pruned : trie.Pruned dead) :
    ∀ branch ∈ trie.children, branch.2.Pruned dead := by
  cases pruned with
  | node alive below => exact below

theorem pruned_leaf (content : ν) : (node content [] : Trie κ ν).Pruned dead :=
  .node (by simp) (by simp)

theorem isDead_eq (trie : Trie κ ν) :
    trie.isDead dead = (dead trie.value && trie.children.isEmpty) := by
  cases trie; rfl

/-- The number of values that are not dead. -/
def liveCount (dead : ν → Bool) (trie : Trie κ ν) : ℕ :=
  (trie.nodes.filter fun entry => !dead entry.2).length

/-- The lengths of the paths of the values that are not dead, added up. -/
def liveWeight (dead : ν → Bool) (trie : Trie κ ν) : ℕ :=
  ((trie.nodes.filter fun entry => !dead entry.2).map fun entry => entry.1.length).sum

theorem liveCount_eq (content : ν) (branches : List (Σ _ : κ, Trie κ ν)) :
    (node content branches).liveCount dead =
      (if dead content then 0 else 1) +
        (branches.map fun branch => branch.2.liveCount dead).sum := by
  have below : ((branchNodes branches).filter fun entry => !dead entry.2).length =
      (branches.map fun branch => branch.2.liveCount dead).sum := by
    induction branches with
    | nil => rfl
    | cons branch rest ih =>
        rw [branchNodes, List.filter_append, List.length_append, ih, List.map_cons, List.sum_cons,
          liveCount, List.filter_map, List.length_map]
        rfl
  rw [liveCount, nodes, List.filter_cons]
  cases here : dead content <;> simp [below, Nat.add_comm]

theorem liveWeight_eq (content : ν) (branches : List (Σ _ : κ, Trie κ ν)) :
    (node content branches).liveWeight dead =
      (branches.map fun branch => branch.2.liveWeight dead + branch.2.liveCount dead).sum := by
  have below : (((branchNodes branches).filter fun entry => !dead entry.2).map
      fun entry => entry.1.length).sum =
      (branches.map fun branch => branch.2.liveWeight dead + branch.2.liveCount dead).sum := by
    induction branches with
    | nil => rfl
    | cons branch rest ih =>
        have deeper : ∀ entries : List (List κ × ν),
            (entries.map fun entry => entry.1.length + 1).sum =
              (entries.map fun entry => entry.1.length).sum + entries.length := by
          intro entries
          induction entries with
          | nil => rfl
          | cons entry entries ih =>
              simp only [List.map_cons, List.sum_cons, List.length_cons, ih]
              omega
        rw [branchNodes, List.filter_append, List.map_append, List.sum_append, ih, List.map_cons,
          List.sum_cons, liveWeight, liveCount, List.filter_map, List.map_map, ← deeper]
        rfl
  rw [liveWeight, nodes, List.filter_cons]
  cases here : dead content <;> simp [below]

/-- A node that is not dead has a value below it that is not dead. -/
theorem Pruned.liveCount_pos {trie : Trie κ ν} (pruned : trie.Pruned dead)
    (alive : trie.isDead dead = false) : 0 < trie.liveCount dead := by
  induction pruned with
  | @node content branches living below ih =>
      rw [liveCount_eq]
      cases here : dead content with
      | false =>
          rw [if_neg (by simp)]
          omega
      | true =>
          cases branches with
          | nil => simp [isDead, here] at alive
          | cons branch rest =>
              have first := ih branch List.mem_cons_self (living branch List.mem_cons_self)
              rw [List.map_cons, List.sum_cons]
              omega

theorem length_nodes (content : ν) (branches : List (Σ _ : κ, Trie κ ν)) :
    (node content branches).nodes.length =
      1 + (branches.map fun branch => branch.2.nodes.length).sum := by
  have below : (branchNodes branches).length =
      (branches.map fun branch => branch.2.nodes.length).sum := by
    induction branches with
    | nil => rfl
    | cons branch rest ih =>
        rw [branchNodes, List.length_append, List.length_map, ih, List.map_cons, List.sum_cons]
  rw [nodes, List.length_cons, below, Nat.add_comm]

/-- A pruned trie has no more nodes below its root than there are labels on the paths of its
values that are not dead. -/
theorem Pruned.length_nodes_le {trie : Trie κ ν} (pruned : trie.Pruned dead) :
    trie.nodes.length ≤ 1 + trie.liveWeight dead := by
  induction pruned with
  | @node content branches living below ih =>
      rw [length_nodes, liveWeight_eq]
      apply Nat.add_le_add_left
      apply List.sum_le_sum
      intro branch member
      have count := (below branch member).liveCount_pos (living branch member)
      have rest := ih branch member
      omega

mutual

/-- Apply to the value of every node a function that depends on its path. -/
def mapPath (change : List κ → ν → ν) : Trie κ ν → Trie κ ν
  | node content branches => node (change [] content) (mapPathBranches change branches)

/-- The same for the nodes below a list of labelled children. -/
def mapPathBranches (change : List κ → ν → ν) :
    List (Σ _ : κ, Trie κ ν) → List (Σ _ : κ, Trie κ ν)
  | [] => []
  | ⟨key, trie⟩ :: rest =>
      ⟨key, trie.mapPath fun path => change (key :: path)⟩ :: mapPathBranches change rest

end

theorem mapPath_eq (change : List κ → ν → ν) (trie : Trie κ ν) :
    trie.mapPath change = (trie.updateChildren fun key child =>
      child.mapPath fun path => change (key :: path)).modifyValue (change []) := by
  have below : ∀ branches : List (Σ _ : κ, Trie κ ν), mapPathBranches change branches =
      branches.map (Sigma.map id fun key child =>
        child.mapPath fun path => change (key :: path)) := by
    intro branches
    induction branches with
    | nil => rfl
    | cons branch rest ih =>
        rw [mapPathBranches, ih]
        rfl
  cases trie with
  | node content branches =>
      rw [mapPath, below]
      rfl

theorem value_mapPath (change : List κ → ν → ν) (trie : Trie κ ν) :
    (trie.mapPath change).value = change [] trie.value := by
  rw [mapPath_eq, value_modifyValue, value_updateChildren]

theorem isEmpty_children_mapPath (change : List κ → ν → ν) (trie : Trie κ ν) :
    (trie.mapPath change).children.isEmpty = trie.children.isEmpty := by
  rw [mapPath_eq, children_modifyValue, children_updateChildren, List.isEmpty_map]

mutual

theorem mapPath_const (change : ν → ν) : (trie : Trie κ ν) →
    trie.mapPath (fun _ => change) = trie.map change
  | node content branches => by
      rw [mapPath, map, mapPathBranches_const change branches]

theorem mapPathBranches_const (change : ν → ν) : (branches : List (Σ _ : κ, Trie κ ν)) →
    mapPathBranches (fun _ => change) branches = mapBranches change branches
  | [] => rfl
  | ⟨key, trie⟩ :: rest => by
      rw [mapPathBranches, mapBranches, mapPath_const change trie,
        mapPathBranches_const change rest]

end

mutual

theorem mapPath_id : (trie : Trie κ ν) → trie.mapPath (fun _ content => content) = trie
  | node content branches => by
      rw [mapPath, mapPathBranches_id branches]

theorem mapPathBranches_id : (branches : List (Σ _ : κ, Trie κ ν)) →
    mapPathBranches (fun _ content => content) branches = branches
  | [] => rfl
  | ⟨key, trie⟩ :: rest => by
      rw [mapPathBranches, mapPath_id trie, mapPathBranches_id rest]

end

section Path

variable [DecidableEq κ]

theorem Pruned.child? {trie child : Trie κ ν} (pruned : trie.Pruned dead) {key : κ}
    (found : trie.child? key = some child) : child.Pruned dead :=
  pruned.branch _ (mem_children_of_child? found)

/-- A trie is pruned if every path below the root with a dead value goes on. -/
theorem pruned_iff {trie : Trie κ ν} (wf : trie.WF) :
    trie.Pruned dead ↔ ∀ path found, path ≠ [] → trie.find? path = some found →
      found.isDead dead = false := by
  constructor
  · intro pruned path found below reached
    induction path generalizing trie with
    | nil => exact absurd rfl below
    | cons key path ih =>
        rw [find?_cons, Option.bind_eq_some_iff] at reached
        rcases reached with ⟨child, childFound, rest⟩
        cases path with
        | nil =>
            rw [find?_nil, Option.some.injEq] at rest
            subst rest
            exact pruned.alive _ (mem_children_of_child? childFound)
        | cons next path =>
            exact ih (wf.child? childFound) (pruned.child? childFound) (by simp) rest
  · intro every
    induction wf with
    | @node content branches keys below ih =>
        have childFound : ∀ branch ∈ branches,
            (node content branches).child? branch.1 = some branch.2 :=
          fun branch member => List.mem_dlookup keys member
        refine .node ?_ ?_
        · intro branch member
          apply every [branch.1] branch.2 (by simp)
          rw [find?_cons, childFound branch member]
          simp
        · intro branch member
          apply ih branch member
          intro path found _ reached
          apply every (branch.1 :: path) found (by simp)
          rw [find?_cons, childFound branch member]
          exact reached

theorem find?_mapPath (change : List κ → ν → ν) (trie : Trie κ ν) (path : List κ) :
    (trie.mapPath change).find? path =
      (trie.find? path).map fun found => found.mapPath fun rest => change (path ++ rest) := by
  induction path generalizing trie change with
  | nil => simp
  | cons key path ih =>
      rw [mapPath_eq, find?_cons, find?_cons, child?_modifyValue, child?_updateChildren]
      cases trie.child? key with
      | none => rfl
      | some child => exact ih (fun rest => change (key :: rest)) child

/-- A change of values keeps a trie pruned if it makes no childless node below the root dead. -/
theorem pruned_mapPath_iff {trie : Trie κ ν} (change : List κ → ν → ν)
    (changedWF : (trie.mapPath change).WF) :
    (trie.mapPath change).Pruned dead ↔ ∀ path found, path ≠ [] → trie.find? path = some found →
      ¬(dead (change path found.value) = true ∧ found.children = []) := by
  rw [pruned_iff changedWF]
  constructor
  · rintro every path found below reached ⟨empty, bare⟩
    have alive := every path _ below (by rw [find?_mapPath, reached]; rfl)
    rw [isDead_eq, value_mapPath, isEmpty_children_mapPath, List.append_nil, empty, bare] at alive
    exact absurd alive (by simp)
  · intro every path found below reached
    rw [find?_mapPath, Option.map_eq_some_iff] at reached
    rcases reached with ⟨before, here, rfl⟩
    rw [isDead_eq, value_mapPath, isEmpty_children_mapPath, List.append_nil]
    have spared := every path before below here
    simpa [List.isEmpty_iff] using spared

theorem Pruned.kinsert {content : ν} {branches : List (Σ _ : κ, Trie κ ν)}
    (pruned : (Trie.node content branches).Pruned dead) {key : κ} {child : Trie κ ν}
    (alive : child.isDead dead = false) (below : child.Pruned dead) :
    (Trie.node content (branches.kinsert key child)).Pruned dead := by
  refine .node ?_ ?_
  · intro branch member
    rw [List.kinsert_def, List.mem_cons] at member
    rcases member with rfl | old
    · exact alive
    · exact pruned.alive branch ((List.kerase_sublist _ _).subset old)
  · intro branch member
    rw [List.kinsert_def, List.mem_cons] at member
    rcases member with rfl | old
    · exact below
    · exact pruned.branch branch ((List.kerase_sublist _ _).subset old)

/-- The node an insertion returns is not dead if the new value is not. -/
theorem isDead_insertWith (blank : ν) {change : ν → ν}
    (alive : ∀ content, dead (change content) = false) (trie : Trie κ ν) (path : List κ) :
    (trie.insertWith blank change path).isDead dead = false := by
  cases trie with
  | node content branches =>
      cases path with
      | nil => simp [insertWith, isDead, alive]
      | cons key path => simp [insertWith, isDead, List.kinsert_def]

theorem Pruned.insertWith {trie : Trie κ ν} (pruned : trie.Pruned dead) (blank : ν)
    {change : ν → ν} (alive : ∀ content, dead (change content) = false) (path : List κ) :
    (trie.insertWith blank change path).Pruned dead := by
  induction path generalizing trie with
  | nil =>
      cases pruned with
      | node living below => exact .node living below
  | cons key path ih =>
      cases trie with
      | node content branches =>
          apply pruned.kinsert (isDead_insertWith blank alive _ path)
          apply ih
          cases found : branches.dlookup key with
          | none => exact pruned_leaf blank
          | some child => exact pruned.branch _ (List.of_mem_dlookup found)

theorem Pruned.pruneWith {trie : Trie κ ν} (pruned : trie.Pruned dead) (change : ν → ν)
    (path : List κ) : (trie.pruneWith dead change path).Pruned dead := by
  induction path generalizing trie with
  | nil =>
      cases pruned with
      | node living below => exact .node living below
  | cons key path ih =>
      cases trie with
      | node content branches =>
          simp only [Trie.pruneWith]
          cases found : branches.dlookup key with
          | none => exact pruned
          | some child =>
              have below := ih (pruned.branch _ (List.of_mem_dlookup found))
              simp only
              split
              · refine .node ?_ ?_
                · intro branch member
                  exact pruned.alive branch ((List.kerase_sublist _ _).subset member)
                · intro branch member
                  exact pruned.branch branch ((List.kerase_sublist _ _).subset member)
              · rename_i alive
                exact pruned.kinsert (Bool.eq_false_iff.mpr alive) below

/-- An insertion does not change what is found off its path. -/
theorem find?_insertWith_of_not_isPrefix (blank : ν) (change : ν → ν) (trie : Trie κ ν)
    {levels path : List κ} (off : ¬path <+: levels) :
    (trie.insertWith blank change levels).find? path = trie.find? path := by
  induction levels generalizing trie path with
  | nil =>
      cases trie with
      | node content branches =>
          cases path with
          | nil => exact absurd (List.nil_prefix) off
          | cons key path => simp [Trie.insertWith, find?_cons, Trie.child?]
  | cons level levels ih =>
      cases trie with
      | node content branches =>
          cases path with
          | nil => exact absurd (List.nil_prefix) off
          | cons key path =>
              rw [Trie.insertWith, find?_cons, find?_cons]
              by_cases same : key = level
              · subst same
                have rest : ¬path <+: levels := by
                  intro within
                  exact off ((List.prefix_cons_inj key).mpr within)
                rw [child?_kinsert_self, Option.bind_some, ih _ rest]
                cases found : branches.dlookup key with
                | some child => simp [Trie.child?, found]
                | none =>
                    cases path with
                    | nil => exact absurd (List.nil_prefix) rest
                    | cons next path => simp [Trie.child?, found, find?_cons]
              · rw [child?_kinsert_ne _ _ same]

/-- Along the path of an insertion every node is alive if the new value is. -/
theorem isDead_of_isPrefix (blank : ν) {change : ν → ν}
    (alive : ∀ content, dead (change content) = false) (trie : Trie κ ν) {levels path : List κ}
    (on : path <+: levels) {found : Trie κ ν}
    (reached : (trie.insertWith blank change levels).find? path = some found) :
    found.isDead dead = false := by
  induction path generalizing trie levels with
  | nil =>
      rw [find?_nil, Option.some.injEq] at reached
      subst reached
      exact isDead_insertWith blank alive trie levels
  | cons key path ih =>
      rcases on with ⟨rest, rfl⟩
      cases trie with
      | node content branches =>
          rw [List.cons_append, Trie.insertWith, find?_cons, child?_kinsert_self,
            Option.bind_some] at reached
          exact ih _ (List.prefix_append path rest) reached

end Path

end Trie

end Lib
