import VolantMQ.Broker.System
import VolantMQ.Topics.Overlap
import VolantMQ.Topics.Restart

/-!
# The overlap setting

The setting `AllowOverlappingSubscriptions` is to decide how many copies of a message a client
gets whose filters overlap: a single one if it is set, otherwise one for each matching filter. The
server passes it on in the configuration of the topics provider, but `NewMemProvider` does not
read it, so every provider counts as if it were not set.

A No Local subscription of the publisher does not receive the message under either setting.
-/

namespace VolantMQ.Topics

open Lib Packet

/-- The fields of `MemConfig` that decide what a provider holds; `Persist` stands for the entries
that the backend loads, and there are none without a backend. -/
structure MemConfig where
  Persist : List PersistedPacket
  AllowOverlappingSubscriptions : Bool

/-- `NewMemProvider`: the provider and what is in its channel `inRetained`. The literal that makes
the provider leaves out the overlap setting. -/
def MemConfig.newMemProvider (config : MemConfig) : Except Halt (Provider × List Publish) :=
  Topics.newMemProvider config.Persist

theorem MemConfig.newMemProvider_eq_new {config : MemConfig} {mT : Provider}
    {inRetained : List Publish} (created : config.newMemProvider = .ok (mT, inRetained)) :
    mT = .new := by
  unfold MemConfig.newMemProvider Topics.newMemProvider at created
  cases loaded : config.Persist.foldlM loadRetained [] with
  | error halt =>
      rw [loaded] at created
      cases created
  | ok messages =>
      rw [loaded] at created
      cases created
      rfl

namespace Provider

/-- The number of times that the publisher hands a message to a subscriber. -/
def copies (mT : Provider) (msg : Publish) (s : Hash) : ℕ :=
  (Broker.receivers mT msg).countP fun entry => entry.s == s

end Provider

namespace Table

/-- The number of filters of a subscriber by which it receives a message. -/
def matchingFilters (table : Table) (msg : Publish) (s : Hash) : ℕ :=
  (table.eligible msg.topic msg.publishID s).length

theorem countP_deliveries (table : Table) (topic : GoString) (publishID s : Hash) :
    (table.deliveries topic publishID).countP (fun entry => entry.s == s) =
      (table.eligible topic publishID s).length := by
  rw [deliveries, eligible, List.countP_filterMap, List.length_map, ← List.countP_eq_length_filter]
  apply List.countP_congr
  rintro ⟨⟨filter, sub⟩, p⟩ _
  by_cases own : sub = s
  · subst own
    simp only [deliver, NodeData.mayReceive]
    split <;> simp_all
  · simp only [deliver]
    split <;> simp_all

theorem matchingFilters_le (table : Table) (msg : Publish) (s : Hash) :
    table.matchingFilters msg s ≤
      table.entries.countP fun entry => filterMatches entry.1.1 msg.topic := by
  rw [matchingFilters, eligible, List.length_map, ← List.countP_eq_length_filter]
  apply List.countP_mono_left
  intro entry _ chosen
  simp only [Bool.and_eq_true] at chosen
  exact chosen.1.2

end Table

/-- The overlap setting governs the delivery of a message: where it is set no subscriber gets a
second copy, and elsewhere each gets one for each of its matching filters. -/
def MemConfig.Governs (config : MemConfig) (mT : Provider) (table : Table) (msg : Publish) : Prop :=
  if config.AllowOverlappingSubscriptions then ∀ s, mT.copies msg s ≤ 1
  else ∀ s, mT.copies msg s = table.matchingFilters msg s

namespace Provider

theorem wildcardFree_of_validTopic {topic : GoString} (valid : validTopic topic = true) :
    WildcardFree topic := by
  simp only [validTopic, Bool.and_eq_true, Bool.not_eq_true', List.contains_eq_mem,
    decide_eq_false_iff_not] at valid
  exact ⟨valid.2, valid.1.2⟩

/-- A provider that was created by `NewMemProvider` sends one copy for each matching filter,
whatever its configuration says. -/
theorem copies_run {config : MemConfig} {mT : Provider} {inRetained : List Publish}
    (created : config.newMemProvider = .ok (mT, inRetained)) (ops : List Op) {msg : Publish}
    (valid : validTopic msg.topic = true) (s : Hash) :
    (mT.run ops).1.copies msg s = ((∅ : Table).run ops).1.matchingFilters msg s := by
  rcases MemConfig.newMemProvider_eq_new created with rfl
  have represents : ((new.run ops).1).Represents ((∅ : Table).run ops).1 :=
    (represents_run (represents_empty false) ops).1
  have mode : (new.run ops).1.allowOverlapping = false := allowOverlapping_run new ops
  have search := subscriptionSearch_perm represents mode (wildcardFree_of_validTopic valid)
    msg.publishID
  rw [copies, Broker.receivers, search.countP_eq]
  exact Table.countP_deliveries _ msg.topic msg.publishID s

/-- After every run of operations, the overlap setting of a provider that `NewMemProvider` created
governs the delivery of a message if and only if it is not set or no subscriber has two filters by
which it receives the message. -/
theorem overlapSetting_governs_iff {config : MemConfig} {mT : Provider} {inRetained : List Publish}
    (created : config.newMemProvider = .ok (mT, inRetained)) (ops : List Op) {msg : Publish}
    (valid : validTopic msg.topic = true) :
    config.Governs (mT.run ops).1 ((∅ : Table).run ops).1 msg ↔
      config.AllowOverlappingSubscriptions = false ∨
        ∀ s, ((∅ : Table).run ops).1.matchingFilters msg s ≤ 1 := by
  have counted := copies_run created ops valid
  simp only [MemConfig.Governs, counted]
  cases config.AllowOverlappingSubscriptions <;> simp

/-- The setting of a server that asks for single copies, without a backend. -/
def singleCopies : MemConfig := ⟨[], true⟩

/-- A message that nobody publishes under No Local. -/
def copiedMessage (topic : GoString) : Publish := { Publish.new ProtocolV311 with topic }

/-- Two filters of one subscriber, of which only one matches. -/
theorem singleCopies_governs :
    singleCopies.newMemProvider = .ok (.new, []) ∧
      validTopic (copiedMessage (ascii "a/c")).topic = true ∧
      singleCopies.Governs (new.run overlappingSample).1 ((∅ : Table).run overlappingSample).1
        (copiedMessage (ascii "a/c")) := by
  have valid : validTopic (copiedMessage (ascii "a/c")).topic = true := by decide +kernel
  refine ⟨rfl, valid, (overlapSetting_governs_iff rfl overlappingSample valid).mpr (Or.inr ?_)⟩
  intro s
  apply (Table.matchingFilters_le _ _ s).trans
  decide +kernel

/-- Where both filters of the subscriber match, it gets two copies although the setting asks for
a single one. -/
theorem singleCopies_ignored :
    ¬singleCopies.Governs (new.run overlappingSample).1 ((∅ : Table).run overlappingSample).1
      (copiedMessage (ascii "a/b")) := by
  intro governs
  have single : (new.run overlappingSample).1.copies (copiedMessage (ascii "a/b")) 2 ≤ 1 :=
    governs 2
  exact absurd single (by decide +kernel)

end Provider

end VolantMQ.Topics
