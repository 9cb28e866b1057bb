import Mathlib.Data.List.Sigma

/-!
# Tries with association-list children

A `Trie κ ν` is a finitely branching tree whose edges are labelled by keys in `κ`
and whose nodes hold values in `ν`. The children of a node are an association
list, so the iteration order of a node's children is part of the representation
and nothing about it is promised.

Two updates are provided. `insertWith` walks down a path, creating the missing
nodes with a blank value, and changes the value at its end. `pruneWith` changes the
value at the end of an existing path and then runs back up, detaching every child
that is left dead: blank in value and without children. The results below say what
both do to the value read at an arbitrary path, so a client never has to look at
nodes again.
-/

namespace Lib

universe u v w

/-- A tree with edges labelled by `κ` and a value in `ν` at every node. -/
inductive Trie (κ : Type u) (ν : Type v) where
  | node (value : ν) (children : List (Σ _ : κ, Trie κ ν))

namespace Trie

variable {κ : Type u} {ν : Type v}

/-- The value held at the root. -/
def value : Trie κ ν → ν
  | node value _ => value

/-- The labelled children of the root. -/
def children : Trie κ ν → List (Σ _ : κ, Trie κ ν)
  | node _ children => children

@[simp]
theorem value_node (content : ν) (branches : List (Σ _ : κ, Trie κ ν)) :
    (node content branches).value = content := rfl

@[simp]
theorem children_node (content : ν) (branches : List (Σ _ : κ, Trie κ ν)) :
    (node content branches).children = branches := rfl

/-- No two children of a node carry the same label, at any depth. -/
inductive WF : Trie κ ν → Prop where
  | node {content : ν} {branches : List (Σ _ : κ, Trie κ ν)}
      (keys : branches.NodupKeys)
      (below : ∀ branch ∈ branches, WF branch.2) :
      WF (node content branches)

theorem WF.keys {trie : Trie κ ν} (wf : trie.WF) : trie.children.NodupKeys := by
  cases wf with
  | node keys below => exact keys

theorem WF.branch {trie : Trie κ ν} (wf : trie.WF) :
    ∀ branch ∈ trie.children, branch.2.WF := by
  cases wf with
  | node keys below => exact below

theorem wf_leaf (content : ν) : (node content [] : Trie κ ν).WF :=
  .node List.nodupKeys_nil (by simp)

/-- Every value of the trie has a property. -/
inductive All (good : ν → Prop) : Trie κ ν → Prop where
  | node {content : ν} {branches : List (Σ _ : κ, Trie κ ν)}
      (here : good content)
      (below : ∀ branch ∈ branches, All good branch.2) :
      All good (node content branches)

theorem All.here {good : ν → Prop} {trie : Trie κ ν} (all : trie.All good) : good trie.value := by
  cases all with
  | node here below => exact here

theorem All.branch {good : ν → Prop} {trie : Trie κ ν} (all : trie.All good) :
    ∀ branch ∈ trie.children, branch.2.All good := by
  cases all with
  | node here below => exact below

mutual

/-- Every node of the trie as its path from the root and its value, parents first. -/
def nodes : Trie κ ν → List (List κ × ν)
  | node content branches => ([], content) :: branchNodes branches

/-- The nodes below a list of labelled children. -/
def branchNodes : List (Σ _ : κ, Trie κ ν) → List (List κ × ν)
  | [] => []
  | ⟨key, trie⟩ :: rest =>
      trie.nodes.map (fun entry => (key :: entry.1, entry.2)) ++ branchNodes rest

end

theorem branchNodes_eq_flatMap (branches : List (Σ _ : κ, Trie κ ν)) :
    branchNodes branches = branches.flatMap fun branch =>
      branch.2.nodes.map fun entry => (branch.1 :: entry.1, entry.2) := by
  induction branches with
  | nil => simp [branchNodes]
  | cons branch rest ih =>
      rcases branch with ⟨key, trie⟩
      simp [branchNodes, ih]

theorem nodes_eq (trie : Trie κ ν) :
    trie.nodes = ([], trie.value) :: trie.children.flatMap fun branch =>
      branch.2.nodes.map fun entry => (branch.1 :: entry.1, entry.2) := by
  cases trie with
  | node content branches => simp [nodes, branchNodes_eq_flatMap]

/-- Paths put below distinct labels are distinct. -/
theorem nodup_below {branches : List (Σ _ : κ, Trie κ ν)} (keys : branches.NodupKeys)
    (paths : (Σ _ : κ, Trie κ ν) → List (List κ))
    (each : ∀ branch ∈ branches, (paths branch).Nodup) :
    (branches.flatMap fun branch => (paths branch).map fun path => branch.1 :: path).Nodup := by
  apply List.nodup_flatMap.mpr
  constructor
  · intro branch member
    apply (each branch member).map
    intro left right equation
    exact (List.cons.inj equation).2
  · apply (List.nodupKeys_iff_pairwise.mp keys).imp
    intro left right distinct
    apply List.disjoint_left.mpr
    intro path first second
    rcases List.mem_map.mp first with ⟨_, _, rfl⟩
    rcases List.mem_map.mp second with ⟨_, _, equation⟩
    exact distinct (List.cons.inj equation).1.symm

/-- Distinct nodes have distinct paths. -/
theorem nodup_nodes {trie : Trie κ ν} (wf : trie.WF) : (trie.nodes.map Prod.fst).Nodup := by
  induction wf with
  | @node content branches keys below ih =>
      have distinct := nodup_below keys _ ih
      rw [nodes, branchNodes_eq_flatMap, List.map_cons, List.nodup_cons, List.map_flatMap]
      constructor
      · simp [List.mem_flatMap]
      · simpa [List.map_map, Function.comp_def] using distinct

theorem All.imp {good better : ν → Prop} (weaker : ∀ content, good content → better content)
    {trie : Trie κ ν} (all : trie.All good) : trie.All better := by
  induction all with
  | node here below ih => exact .node (weaker _ here) ih

theorem All.of_mem_nodes {good : ν → Prop} {trie : Trie κ ν} (all : trie.All good) :
    ∀ entry ∈ trie.nodes, good entry.2 := by
  induction all with
  | node here below ih =>
      intro entry member
      rw [nodes, branchNodes_eq_flatMap] at member
      rcases List.mem_cons.mp member with rfl | deeper
      · exact here
      · simp only [List.mem_flatMap, List.mem_map] at deeper
        rcases deeper with ⟨branch, branchMem, inner, innerMem, rfl⟩
        exact ih branch branchMem inner innerMem

theorem WF.all_of_nodes {good : ν → Prop} {trie : Trie κ ν} (wf : trie.WF)
    (every : ∀ entry ∈ trie.nodes, good entry.2) : trie.All good := by
  induction wf with
  | @node content branches keys below ih =>
      rw [nodes, branchNodes_eq_flatMap] at every
      refine .node (every _ List.mem_cons_self) ?_
      intro branch member
      apply ih branch member
      intro entry deeper
      refine every (branch.1 :: entry.1, entry.2) (List.mem_cons_of_mem _ ?_)
      exact List.mem_flatMap.mpr ⟨branch, member, List.mem_map_of_mem deeper⟩

mutual

/-- Apply a function to the value of every node. -/
def map (change : ν → ν) : Trie κ ν → Trie κ ν
  | node content branches => node (change content) (mapBranches change branches)

/-- Apply a function to the value of every node below a list of labelled children. -/
def mapBranches (change : ν → ν) : List (Σ _ : κ, Trie κ ν) → List (Σ _ : κ, Trie κ ν)
  | [] => []
  | ⟨key, trie⟩ :: rest => ⟨key, trie.map change⟩ :: mapBranches change rest

end

/-- Change only the value at the root. -/
def modifyValue (change : ν → ν) : Trie κ ν → Trie κ ν
  | node content branches => node (change content) branches

/-- Replace every child by a function of its label and itself. -/
def updateChildren (change : κ → Trie κ ν → Trie κ ν) : Trie κ ν → Trie κ ν
  | node content branches => node content (branches.map (Sigma.map id change))

@[simp]
theorem value_modifyValue (change : ν → ν) (trie : Trie κ ν) :
    (trie.modifyValue change).value = change trie.value := by
  cases trie; rfl

@[simp]
theorem children_modifyValue (change : ν → ν) (trie : Trie κ ν) :
    (trie.modifyValue change).children = trie.children := by
  cases trie; rfl

@[simp]
theorem value_updateChildren (change : κ → Trie κ ν → Trie κ ν) (trie : Trie κ ν) :
    (trie.updateChildren change).value = trie.value := by
  cases trie; rfl

@[simp]
theorem children_updateChildren (change : κ → Trie κ ν → Trie κ ν) (trie : Trie κ ν) :
    (trie.updateChildren change).children = trie.children.map (Sigma.map id change) := by
  cases trie; rfl

theorem mapBranches_eq_map (change : ν → ν) (branches : List (Σ _ : κ, Trie κ ν)) :
    mapBranches change branches = branches.map (Sigma.map id fun _ trie => trie.map change) := by
  induction branches with
  | nil => simp [mapBranches]
  | cons branch rest ih =>
      rcases branch with ⟨key, trie⟩
      simp [mapBranches, ih, Sigma.map]

theorem map_eq (change : ν → ν) (trie : Trie κ ν) :
    trie.map change =
      (trie.updateChildren fun _ child => child.map change).modifyValue change := by
  cases trie with
  | node content branches =>
      simp [map, updateChildren, modifyValue, mapBranches_eq_map]

theorem WF.modifyValue {trie : Trie κ ν} (wf : trie.WF) (change : ν → ν) :
    (trie.modifyValue change).WF := by
  cases wf with
  | node keys below => exact .node keys below

theorem WF.updateChildren {trie : Trie κ ν} (wf : trie.WF) {change : κ → Trie κ ν → Trie κ ν}
    (preserved : ∀ branch ∈ trie.children, (change branch.1 branch.2).WF) :
    (trie.updateChildren change).WF := by
  cases wf with
  | node keys below =>
      refine .node (keys.map₂ change _) ?_
      intro branch member
      rw [List.mem_map] at member
      rcases member with ⟨original, originalMem, rfl⟩
      exact preserved original originalMem

theorem WF.map {trie : Trie κ ν} (wf : trie.WF) (change : ν → ν) : (trie.map change).WF := by
  induction wf with
  | @node content branches keys below ih =>
      rw [map_eq]
      refine WF.modifyValue (WF.updateChildren (.node keys below) ?_) change
      exact ih

section Path

variable [DecidableEq κ]

/-- The child reached by one label. -/
def child? (trie : Trie κ ν) (key : κ) : Option (Trie κ ν) :=
  trie.children.dlookup key

/-- The node reached by a path. -/
def find? : Trie κ ν → List κ → Option (Trie κ ν)
  | trie, [] => some trie
  | trie, key :: path => (trie.child? key).bind fun child => child.find? path

/-- The value read at a path, where a missing node reads as `blank`. -/
def get (blank : ν) (trie : Trie κ ν) (path : List κ) : ν :=
  ((trie.find? path).map value).getD blank

@[simp]
theorem find?_nil (trie : Trie κ ν) : trie.find? [] = some trie := by
  cases trie; rfl

theorem find?_cons (trie : Trie κ ν) (key : κ) (path : List κ) :
    trie.find? (key :: path) = (trie.child? key).bind fun child => child.find? path := by
  cases trie; rfl

@[simp]
theorem get_nil (blank : ν) (trie : Trie κ ν) : trie.get blank [] = trie.value := by
  simp [get]

theorem get_cons (blank : ν) (trie : Trie κ ν) (key : κ) (path : List κ) :
    trie.get blank (key :: path) =
      ((trie.child? key).map fun child => child.get blank path).getD blank := by
  cases found : trie.child? key <;> simp [get, find?_cons, found]

theorem get_leaf (blank : ν) (path : List κ) :
    (node blank [] : Trie κ ν).get blank path = blank := by
  cases path with
  | nil => simp
  | cons key path => simp [get_cons, child?]

theorem mem_children_of_child? {trie child : Trie κ ν} {key : κ}
    (found : trie.child? key = some child) : (⟨key, child⟩ : Σ _ : κ, Trie κ ν) ∈ trie.children :=
  List.of_mem_dlookup found

theorem child?_eq_some_iff {trie child : Trie κ ν} (wf : trie.WF) {key : κ} :
    trie.child? key = some child ↔ (⟨key, child⟩ : Σ _ : κ, Trie κ ν) ∈ trie.children :=
  List.mem_dlookup_iff wf.keys

theorem WF.child? {trie child : Trie κ ν} (wf : trie.WF) {key : κ}
    (found : trie.child? key = some child) : child.WF :=
  wf.branch _ (mem_children_of_child? found)

/-- The enumeration of all nodes lists exactly what can be reached by a path. -/
theorem mem_nodes_iff {trie : Trie κ ν} (wf : trie.WF) {path : List κ} {content : ν} :
    (path, content) ∈ trie.nodes ↔ (trie.find? path).map value = some content := by
  induction path generalizing trie with
  | nil =>
      rw [nodes_eq]
      simp [eq_comm]
  | cons key path ih =>
      rw [nodes_eq, find?_cons]
      simp only [List.mem_cons, Prod.mk.injEq, reduceCtorEq, false_and, List.mem_flatMap,
        List.mem_map, List.cons.injEq, false_or, Option.map_bind]
      constructor
      · rintro ⟨branch, branchMem, entry, entryMem, ⟨rfl, rfl⟩, rfl⟩
        have childFound : trie.child? branch.1 = some branch.2 :=
          (child?_eq_some_iff wf).mpr branchMem
        rw [childFound]
        exact (ih (wf.child? childFound)).mp entryMem
      · intro reached
        rw [Option.bind_eq_some_iff] at reached
        rcases reached with ⟨child, childFound, rest⟩
        refine ⟨⟨key, child⟩, mem_children_of_child? childFound, (path, content), ?_, ⟨rfl, rfl⟩, rfl⟩
        exact (ih (wf.child? childFound)).mpr rest

theorem All.find? {good : ν → Prop} {trie found : Trie κ ν} (all : trie.All good)
    {path : List κ} (reached : trie.find? path = some found) : found.All good := by
  induction path generalizing trie with
  | nil =>
      simp only [find?_nil, Option.some.injEq] at reached
      exact reached ▸ all
  | cons key path ih =>
      rw [find?_cons, Option.bind_eq_some_iff] at reached
      rcases reached with ⟨child, childFound, rest⟩
      exact ih (all.branch _ (mem_children_of_child? childFound)) rest

@[simp]
theorem child?_modifyValue (change : ν → ν) (trie : Trie κ ν) (key : κ) :
    (trie.modifyValue change).child? key = trie.child? key := by
  simp [child?]

theorem child?_updateChildren (change : κ → Trie κ ν → Trie κ ν) (trie : Trie κ ν) (key : κ) :
    (trie.updateChildren change).child? key = (trie.child? key).map (change key) := by
  simp [child?, List.dlookup_map₂]

/-- Two tries of one shape whose values are related node by node. -/
def Pointwise (related : ν → ν → Prop) (before after : Trie κ ν) : Prop :=
  ∀ path, Option.Rel related ((before.find? path).map value) ((after.find? path).map value)

theorem Pointwise.refl {related : ν → ν → Prop} (reflexive : ∀ content, related content content)
    (trie : Trie κ ν) : trie.Pointwise related trie := by
  intro path
  cases (trie.find? path).map value with
  | none => exact .none
  | some content => exact .some (reflexive content)

theorem Pointwise.modifyValue {related : ν → ν → Prop} (reflexive : ∀ content, related content content)
    {change : ν → ν} (changes : ∀ content, related content (change content)) (trie : Trie κ ν) :
    trie.Pointwise related (trie.modifyValue change) := by
  intro path
  cases path with
  | nil => simpa using Option.Rel.some (changes trie.value)
  | cons key path =>
      rw [find?_cons, find?_cons, child?_modifyValue]
      exact (Pointwise.refl reflexive trie) (key :: path)

theorem Pointwise.updateChildren {related : ν → ν → Prop}
    (reflexive : ∀ content, related content content) {trie : Trie κ ν}
    {change : κ → Trie κ ν → Trie κ ν}
    (changes : ∀ key child, trie.child? key = some child →
      child.Pointwise related (change key child)) :
    trie.Pointwise related (trie.updateChildren change) := by
  intro path
  cases path with
  | nil => simpa using Option.Rel.some (reflexive trie.value)
  | cons key path =>
      rw [find?_cons, find?_cons, child?_updateChildren]
      cases found : trie.child? key with
      | none => exact .none
      | some child => exact changes key child found path

theorem Pointwise.map {related : ν → ν → Prop} {change : ν → ν}
    (changes : ∀ content, related content (change content)) (trie : Trie κ ν) :
    trie.Pointwise related (trie.map change) := by
  intro path
  induction path generalizing trie with
  | nil =>
      rw [map_eq]
      simpa using Option.Rel.some (changes trie.value)
  | cons key path ih =>
      rw [map_eq, find?_cons, find?_cons, child?_modifyValue, child?_updateChildren]
      cases found : trie.child? key with
      | none => exact .none
      | some child => exact ih child

theorem Pointwise.trans {related : ν → ν → Prop}
    (transitive : ∀ a b c, related a b → related b c → related a c) {first second third : Trie κ ν}
    (left : first.Pointwise related second) (right : second.Pointwise related third) :
    first.Pointwise related third := by
  intro path
  have leftHere := left path
  have rightHere := right path
  generalize (first.find? path).map value = a at leftHere ⊢
  generalize (second.find? path).map value = b at leftHere rightHere
  generalize (third.find? path).map value = c at rightHere ⊢
  cases leftHere with
  | none => exact rightHere
  | some ab =>
      cases rightHere with
      | some bc => exact .some (transitive _ _ _ ab bc)

/-- A property kept by the relation is kept by the trie. -/
theorem All.of_pointwise {good : ν → Prop} {related : ν → ν → Prop}
    (keeps : ∀ before after, related before after → good before → good after)
    {before after : Trie κ ν} (afterWf : after.WF) (pointwise : before.Pointwise related after)
    (all : before.All good) : after.All good := by
  induction afterWf generalizing before with
  | @node content branches keys below ih =>
      have rootRelated := pointwise []
      simp only [find?_nil, Option.map_some, value_node] at rootRelated
      cases rootRelated with
      | some rootHere =>
          refine .node (keeps _ _ rootHere all.here) ?_
          rintro ⟨key, child⟩ member
          have afterFound : (Trie.node content branches).child? key = some child :=
            List.mem_dlookup keys member
          have childRelated : ∀ path, Option.Rel related
              (((before.child? key).bind fun found => found.find? path).map value)
              ((child.find? path).map value) := by
            intro path
            have := pointwise (key :: path)
            rwa [find?_cons, find?_cons, afterFound] at this
          cases beforeFound : before.child? key with
          | none =>
              have impossible := childRelated []
              rw [beforeFound] at impossible
              simp only [Option.bind_none, Option.map_none, find?_nil, Option.map_some] at impossible
              cases impossible
          | some old =>
              rw [beforeFound] at childRelated
              exact @ih ⟨key, child⟩ member old childRelated
                (all.branch _ (mem_children_of_child? beforeFound))

theorem child?_kinsert_self (content : ν) (branches : List (Σ _ : κ, Trie κ ν)) (key : κ)
    (child : Trie κ ν) : (node content (branches.kinsert key child)).child? key = some child :=
  List.dlookup_kinsert branches

theorem child?_kinsert_ne (content : ν) (branches : List (Σ _ : κ, Trie κ ν)) {key other : κ}
    (distinct : other ≠ key) (child : Trie κ ν) :
    (node content (branches.kinsert key child)).child? other =
      (node content branches).child? other :=
  List.dlookup_kinsert_ne distinct

theorem child?_kerase_self (content : ν) {branches : List (Σ _ : κ, Trie κ ν)}
    (keys : branches.NodupKeys) (key : κ) :
    (node content (branches.kerase key)).child? key = none :=
  List.dlookup_kerase key keys

theorem child?_kerase_ne (content : ν) (branches : List (Σ _ : κ, Trie κ ν)) {key other : κ}
    (distinct : other ≠ key) :
    (node content (branches.kerase key)).child? other = (node content branches).child? other :=
  List.dlookup_kerase_ne distinct

/-- Walk down a path, creating missing nodes with a blank value, and change the value at
its end. -/
def insertWith (blank : ν) (change : ν → ν) : List κ → Trie κ ν → Trie κ ν
  | [], node content branches => node (change content) branches
  | key :: path, node content branches =>
      node content (branches.kinsert key
        (insertWith blank change path ((branches.dlookup key).getD (node blank []))))

theorem WF.insertWith {trie : Trie κ ν} (wf : trie.WF) (blank : ν) (change : ν → ν)
    (path : List κ) : (trie.insertWith blank change path).WF := by
  induction path generalizing trie with
  | nil =>
      cases wf with
      | node keys below => exact .node keys below
  | cons key path ih =>
      cases wf with
      | @node content branches keys below =>
          refine .node (List.kinsert_nodupKeys _ _ keys) ?_
          intro branch member
          rw [List.kinsert_def, List.mem_cons] at member
          rcases member with rfl | old
          · apply ih
            cases found : branches.dlookup key with
            | none => exact wf_leaf blank
            | some child => exact below _ (List.of_mem_dlookup found)
          · exact below branch ((List.kerase_sublist _ _).subset old)

theorem All.insertWith {good : ν → Prop} {blank : ν} (blankGood : good blank) {change : ν → ν}
    (keeps : ∀ content, good content → good (change content)) {trie : Trie κ ν}
    (all : trie.All good) (path : List κ) : (trie.insertWith blank change path).All good := by
  induction path generalizing trie with
  | nil =>
      cases all with
      | node here below => exact .node (keeps _ here) below
  | cons key path ih =>
      cases all with
      | @node content branches here below =>
          refine .node here ?_
          intro branch member
          rw [List.kinsert_def, List.mem_cons] at member
          rcases member with rfl | old
          · apply ih
            cases found : branches.dlookup key with
            | none => exact .node blankGood (by simp)
            | some child => exact below _ (List.of_mem_dlookup found)
          · exact below branch ((List.kerase_sublist _ _).subset old)

/-- Insertion changes the value read at its own path and no other. -/
theorem get_insertWith (blank : ν) (change : ν → ν) (trie : Trie κ ν) (path other : List κ) :
    (trie.insertWith blank change path).get blank other =
      if other = path then change (trie.get blank path) else trie.get blank other := by
  induction path generalizing trie other with
  | nil =>
      cases trie with
      | node content branches =>
          cases other with
          | nil => simp [insertWith]
          | cons key other => simp [insertWith, get_cons, child?]
  | cons key path ih =>
      cases trie with
      | node content branches =>
          cases other with
          | nil => simp [insertWith]
          | cons otherKey other =>
              by_cases sameKey : otherKey = key
              · subst otherKey
                simp only [insertWith, get_cons, child?_kinsert_self, Option.map_some,
                  Option.getD_some, ih, List.cons.injEq, true_and]
                cases found : branches.dlookup key with
                | none => simp [child?, found, get_leaf]
                | some child => simp [child?, found]
              · have notSame : otherKey :: other ≠ key :: path := by simp [sameKey]
                rw [if_neg notSame, insertWith, get_cons, get_cons,
                  child?_kinsert_ne _ _ sameKey]

/-- A node that holds nothing: its value is dead and it has no children. -/
def isDead (dead : ν → Bool) : Trie κ ν → Bool
  | node content branches => dead content && branches.isEmpty

/-- Change the value at the end of an existing path, then run back up and detach every
child on the path that is left dead. A missing path changes no value. -/
def pruneWith (dead : ν → Bool) (change : ν → ν) : List κ → Trie κ ν → Trie κ ν
  | [], node content branches => node (change content) branches
  | key :: path, node content branches =>
      match branches.dlookup key with
      | none => node content branches
      | some child =>
          let child' := pruneWith dead change path child
          if child'.isDead dead then node content (branches.kerase key)
          else node content (branches.kinsert key child')

theorem WF.pruneWith {trie : Trie κ ν} (wf : trie.WF) (dead : ν → Bool) (change : ν → ν)
    (path : List κ) : (trie.pruneWith dead change path).WF := by
  induction path generalizing trie with
  | nil =>
      cases wf with
      | node keys below => exact .node keys below
  | cons key path ih =>
      cases wf with
      | @node content branches keys below =>
          simp only [Trie.pruneWith]
          cases found : branches.dlookup key with
          | none => exact .node keys below
          | some child =>
              have childWf : child.WF := below _ (List.of_mem_dlookup found)
              simp only
              split
              · refine .node (keys.kerase key) ?_
                intro branch member
                exact below branch ((List.kerase_sublist _ _).subset member)
              · refine .node (List.kinsert_nodupKeys _ _ keys) ?_
                intro branch member
                rw [List.kinsert_def, List.mem_cons] at member
                rcases member with rfl | old
                · exact ih childWf
                · exact below branch ((List.kerase_sublist _ _).subset old)

theorem All.pruneWith {good : ν → Prop} (dead : ν → Bool) {change : ν → ν}
    (keeps : ∀ content, good content → good (change content)) {trie : Trie κ ν}
    (all : trie.All good) (path : List κ) : (trie.pruneWith dead change path).All good := by
  induction path generalizing trie with
  | nil =>
      cases all with
      | node here below => exact .node (keeps _ here) below
  | cons key path ih =>
      cases all with
      | @node content branches here below =>
          simp only [Trie.pruneWith]
          cases found : branches.dlookup key with
          | none => exact .node here below
          | some child =>
              have childAll : child.All good := below _ (List.of_mem_dlookup found)
              simp only
              split
              · refine .node here ?_
                intro branch member
                exact below branch ((List.kerase_sublist _ _).subset member)
              · refine .node here ?_
                intro branch member
                rw [List.kinsert_def, List.mem_cons] at member
                rcases member with rfl | old
                · exact ih childAll
                · exact below branch ((List.kerase_sublist _ _).subset old)

/-- Whatever an observation cannot tell apart from the blank value, a dead node reads as
blank everywhere. -/
theorem observe_get_of_isDead {Observed : Type w} {dead : ν → Bool} {blank : ν}
    {observe : ν → Observed} (deadIsBlank : ∀ content, dead content = true →
      observe content = observe blank) {trie : Trie κ ν} (isDead : trie.isDead dead = true)
    (path : List κ) : observe (trie.get blank path) = observe blank := by
  cases trie with
  | node content branches =>
      simp only [Trie.isDead, Bool.and_eq_true, List.isEmpty_iff] at isDead
      rcases isDead with ⟨deadContent, rfl⟩
      cases path with
      | nil => simpa using deadIsBlank content deadContent
      | cons key path => simp [get_cons, child?]

/-- Pruning changes the value observed at its own path and no other, although it may
remove nodes all the way up to the root. -/
theorem observe_get_pruneWith {Observed : Type w} {dead : ν → Bool} {blank : ν}
    {observe : ν → Observed} (deadIsBlank : ∀ content, dead content = true →
      observe content = observe blank) (change : ν → ν) {trie : Trie κ ν} (wf : trie.WF)
    {path : List κ} (present : (trie.find? path).isSome) (other : List κ) :
    observe ((trie.pruneWith dead change path).get blank other) =
      if other = path then observe (change (trie.get blank path))
      else observe (trie.get blank other) := by
  induction path generalizing trie other with
  | nil =>
      cases trie with
      | node content branches =>
          cases other with
          | nil => simp [pruneWith]
          | cons key other => simp [pruneWith, get_cons, child?]
  | cons key path ih =>
      cases trie with
      | node content branches =>
          rw [find?_cons] at present
          cases found : branches.dlookup key with
          | none => simp [child?, found] at present
          | some child =>
              have childFound : (node content branches).child? key = some child := found
              have childWf : child.WF := wf.child? childFound
              have keys : branches.NodupKeys := wf.keys
              rw [childFound] at present
              have childIh := ih childWf present
              simp only [pruneWith, found]
              cases other with
              | nil => split <;> simp
              | cons otherKey other =>
                  by_cases sameKey : otherKey = key
                  · subst otherKey
                    have childSpec := childIh other
                    simp only [List.cons.injEq, true_and, get_cons, childFound, Option.map_some,
                      Option.getD_some]
                    split
                    · rename_i isDead
                      rw [← childSpec, observe_get_of_isDead deadIsBlank isDead,
                        child?_kerase_self content keys]
                      rfl
                    · rw [child?_kinsert_self]
                      exact childSpec
                  · have notSame : otherKey :: other ≠ key :: path := by simp [sameKey]
                    rw [if_neg notSame]
                    split
                    · rw [get_cons, get_cons, child?_kerase_ne _ _ sameKey]
                    · rw [get_cons, get_cons, child?_kinsert_ne _ _ sameKey]

end Path

end Trie

end Lib
