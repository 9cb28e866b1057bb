import VolantMQ.Topics.Node

/-!
# The flat subscription table

What the subscription trie is for, without a trie: a finite map from a filter and a
subscriber to the parameters of that subscription, and a relation between filters and
topics. `Refinement` compares the provider with this table.

Filters and topics match level by level. `+` stands for any one level, a literal for itself,
and a final `#` for the rest of the topic: for nothing more, or for one or more levels of
which the first is not empty. A topic whose first level starts with `$` is only matched by
filters with the same first level. A `#` before the last level matches nothing.
-/

namespace VolantMQ.Topics

open Lib Packet

/-- Level-by-level matching of a filter and a topic. -/
def matchLevels : List Level → List Level → Bool
  | [], [] => true
  | [], _ :: _ => false
  | f :: fs, [] => f == MWC && fs.isEmpty
  | f :: fs, t :: ts =>
      if f = MWC then fs.isEmpty && t.length != 0
      else (f == SWC || f == t) && matchLevels fs ts

/-- Matching with the rule for first levels that start with `$`. -/
def pathMatches : List Level → List Level → Bool
  | f :: fs, t :: ts =>
      if isSystem t then f == t && matchLevels fs ts else matchLevels (f :: fs) (t :: ts)
  | _, _ => false

/-- Whether a filter receives what is published to a topic. -/
def filterMatches (filter topic : GoString) : Bool := pathMatches (split filter) (split topic)

/-- A topic that contains neither `+` nor `#`. -/
def WildcardFree (topic : GoString) : Prop := 0x2B ∉ topic ∧ 0x23 ∉ topic

instance (topic : GoString) : Decidable (WildcardFree topic) :=
  inferInstanceAs (Decidable (_ ∧ _))

/-- The subscriptions of all subscribers. -/
abbrev Table := AList fun _ : GoString × Hash => SubscriptionParams

namespace Table

/-- Remove the subscriptions of all subscribers to a filter. -/
def eraseFilter (table : Table) (filter : GoString) : Table :=
  ⟨table.entries.filter fun entry => entry.1.1 != filter,
    table.nodupKeys.sublist List.filter_sublist⟩

/-- The effect of one operation on the table, and what it has to report. -/
def step (table : Table) : Provider.Op → Table × Provider.Report
  | .subscribe filter s p _ =>
      (table.insert (filter, s) { p with Granted := SubscriptionOptions.qos p.Ops },
        .existed (table.lookup (filter, s)).isSome)
  | .unSubscribe filter s =>
      (table.erase (filter, s),
        .error (if (table.lookup (filter, s)).isSome then none else some .ErrNotFound))
  | .unSubscribeAll filter => (table.eraseFilter filter, .silent)
  | .retain _ => (table, .silent)
  | .retained _ _ => (table, .silent)

/-- Run a sequence of operations on the table. -/
def run (table : Table) : List Provider.Op → Table × List Provider.Report
  | [] => (table, [])
  | op :: ops =>
      let (next, report) := table.step op
      let (last, reports) := next.run ops
      (last, report :: reports)

/-- The delivery owed to one subscription for a message published by `publishID` to a topic. -/
def deliver (topic : GoString) (publishID : Hash) (filter : GoString) (s : Hash)
    (p : SubscriptionParams) : Option PublishEntry :=
  if filterMatches filter topic && !(SubscriptionOptions.nl p.Ops && s == publishID) then
    some ⟨s, p.Ops, p.Granted, if 0 < p.ID then [p.ID] else []⟩
  else none

/-- All deliveries owed for a message, one for each subscription that gets it. -/
def deliveries (table : Table) (topic : GoString) (publishID : Hash) : List PublishEntry :=
  table.entries.filterMap fun entry => deliver topic publishID entry.1.1 entry.1.2 entry.2

theorem mem_entries_iff {table : Table} {key : GoString × Hash} {p : SubscriptionParams} :
    (⟨key, p⟩ : Σ _ : GoString × Hash, SubscriptionParams) ∈ table.entries ↔
      table.lookup key = some p :=
  AList.mem_lookup_iff.symm

theorem lookup_eraseFilter (table : Table) (filter : GoString) (key : GoString × Hash) :
    (table.eraseFilter filter).lookup key =
      if key.1 = filter then none else table.lookup key := by
  apply Option.ext
  intro p
  rw [← mem_entries_iff]
  simp only [eraseFilter, List.mem_filter, bne_iff_ne, ne_eq, mem_entries_iff]
  by_cases same : key.1 = filter <;> simp [same]

end Table

theorem split_injective : Function.Injective split := by
  intro left right equation
  have joined := congrArg (fun levels => [0x2F].intercalate levels) equation
  simpa only [split, List.intercalate_splitOn] using joined

theorem split_ne_nil (s : GoString) : split s ≠ [] := List.splitOn_ne_nil _ _

/-- Levels without a separator are the levels of some filter. -/
theorem exists_split_eq {levels : List Level} (notEmpty : levels ≠ [])
    (separated : ∀ level ∈ levels, 0x2F ∉ level) : ∃ filter, split filter = levels :=
  ⟨[0x2F].intercalate levels, List.splitOn_intercalate 0x2F separated notEmpty⟩

theorem separator_notMem {s level : GoString} (member : level ∈ split s) : 0x2F ∉ level := by
  induction s generalizing level with
  | nil =>
      simp only [split, List.splitOn_nil, List.mem_singleton] at member
      simp [member]
  | cons byte s ih =>
      simp only [split, List.splitOn_cons_eq_if_modifyHead] at member
      split at member
      · rcases List.mem_cons.mp member with rfl | later
        · simp
        · exact ih later
      · rename_i notSeparator
        cases tail : s.splitOn 0x2F with
        | nil => simp [tail] at member
        | cons first rest =>
            rw [tail, List.modifyHead_cons] at member
            rcases List.mem_cons.mp member with rfl | later
            · have inFirst := @ih first (by simp [split, tail])
              simp only [beq_iff_eq] at notSeparator
              simp [inFirst, Ne.symm notSeparator]
            · exact ih (by simp [split, tail, later])

theorem mem_intercalate_of_mem {separator level : GoString} {levels : List Level} {byte : UInt8}
    (levelMem : level ∈ levels) (byteMem : byte ∈ level) : byte ∈ separator.intercalate levels := by
  induction levels with
  | nil => simp at levelMem
  | cons first rest ih =>
      cases rest with
      | nil =>
          rw [List.mem_singleton] at levelMem
          simpa [levelMem] using byteMem
      | cons second rest =>
          rw [List.intercalate_cons_cons, List.mem_append, List.mem_append]
          rcases List.mem_cons.mp levelMem with rfl | later
          · exact .inl (.inl byteMem)
          · exact .inr (ih later)

/-- The levels of a topic without wildcard characters are literals. -/
theorem levels_literal {topic : GoString} (free : WildcardFree topic) :
    ∀ level ∈ split topic, level ≠ MWC ∧ level ≠ SWC := by
  intro level member
  have sub : ∀ byte ∈ level, byte ∈ topic := by
    intro byte byteMem
    have joined : [0x2F].intercalate (split topic) = topic := List.intercalate_splitOn _
    rw [← joined]
    exact mem_intercalate_of_mem member byteMem
  constructor
  · rintro rfl
    exact free.2 (sub 0x23 (by simp [MWC]))
  · rintro rfl
    exact free.1 (sub 0x2B (by simp [SWC]))

end VolantMQ.Topics
