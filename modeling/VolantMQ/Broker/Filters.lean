import VolantMQ.Broker.Responses
import VolantMQ.Lib.Run
import VolantMQ.Topics.Grammar

/-!
# The filters in the trie

The comment of `TopicSubscribeRegexp` says that all subscriptions must be validated with it. A
filter goes through `Decode`, which looks at its encoding and at its options, through
`onSubscribe`, the subscriber and the trie, and none of them uses the expression. The trie has
well-formed filters only as long as the clients ask for no others.
-/

namespace VolantMQ.Broker

open Lib Packet Connection Topics

/-- The bytes of a packet as they come to a connection. -/
structure Incoming where
  version : ProtocolVersion
  subscriber : Hash
  buf : Bytes
  now : Time

namespace Incoming

/-- The filters of a SUBSCRIBE that `Decode` accepts. -/
def filters (input : Incoming) : List GoString :=
  match decode input.version input.buf with
  | .ok (.control _ (.subscribe topics), _) => topics.map Prod.fst
  | _ => []

end Incoming

/-- A packet goes through `Decode` and, if it is a SUBSCRIBE, to `onSubscribe`. -/
def handle (b : Broker) (input : Incoming) : Broker :=
  match decode input.version input.buf with
  | .ok (.control h (.subscribe topics), _) =>
      (b.onSubscribe input.version input.subscriber (.ofBody h topics) input.now).1
  | _ => b

/-- All filters in the trie match the expression. -/
def Validated (b : Broker) : Prop :=
  ∀ filter s p, b.topics.params filter s = some p → filter ∈ TopicSubscribeRegexp

theorem lastOptions_isSome_iff {topics : List (GoString × SubscriptionOptions)} {filter : GoString} :
    (lastOptions topics filter).isSome = true ↔ filter ∈ topics.map Prod.fst := by
  simp [lastOptions, List.lookup_isSome_iff]

/-- After a packet the trie has the filters it had and those of the packet. -/
theorem stored_handle_iff (b : Broker) (input : Incoming) (filter : GoString) :
    (∃ s p, (b.handle input).topics.params filter s = some p) ↔
      (∃ s p, b.topics.params filter s = some p) ∨ filter ∈ input.filters := by
  unfold handle Incoming.filters
  split
  · rename_i h topics n decoded
    rw [(onSubscribe_law decoded b input.subscriber input.now).2, ← lastOptions_isSome_iff]
    simp only [params_subscribeTopics]
    cases last : lastOptions topics filter with
    | none => simp
    | some ops =>
        refine iff_of_true ⟨input.subscriber, _, if_pos rfl⟩ (.inr rfl)
  · simp

theorem validated_handle_iff {b : Broker} (validated : b.Validated) (input : Incoming) :
    (b.handle input).Validated ↔ ∀ filter ∈ input.filters, filter ∈ TopicSubscribeRegexp := by
  constructor
  · intro after filter asked
    rcases (stored_handle_iff b input filter).mpr (.inr asked) with ⟨s, p, stored⟩
    exact after filter s p stored
  · intro wellFormed filter s p stored
    rcases (stored_handle_iff b input filter).mp ⟨s, p, stored⟩ with ⟨s, p, before⟩ | asked
    · exact validated filter s p before
    · exact wellFormed filter asked

theorem validated_new (overlap : Bool) : (Broker.new overlap).Validated := by
  intro filter s p stored
  rw [show (Broker.new overlap).topics.params filter s = none from
    Topics.Provider.represents_empty overlap filter s] at stored
  cases stored

/-- At all times of a run over any packets, the trie has filters that match the expression only, if
and only if every SUBSCRIBE of the run asks for such filters only. -/
theorem validated_iff (overlap : Bool) (inputs : List Incoming) :
    (∀ n, ((inputs.take n).foldl handle (Broker.new overlap)).Validated) ↔
      ∀ input ∈ inputs, ∀ filter ∈ input.filters, filter ∈ TopicSubscribeRegexp := by
  rw [always_iff_along (fun _ => True) Validated (fun _ _ _ => trivial)
    (fun b input _ validated => validated_handle_iff validated input) trivial inputs,
    along_iff_forall]
  exact and_iff_right (validated_new overlap)

/-- The V3.1.1 SUBSCRIBE for the filter `a+`. -/
def brokenFilter : Incoming :=
  ⟨ProtocolV311, 1, [0x82, 0x07, 0x00, 0x0A, 0x00, 0x02, 0x61, 0x2B, 0x00], 0⟩

theorem brokenFilter_stored :
    ∃ h topics n, decode brokenFilter.version brokenFilter.buf =
        .ok (.control h (.subscribe topics), n) ∧
      ¬((Broker.new false).handle brokenFilter).Validated := by
  refine ⟨_, _, _, rfl, ?_⟩
  intro after
  have asked : ascii "a+" ∈ brokenFilter.filters := by decide
  rcases (stored_handle_iff (Broker.new false) brokenFilter _).mpr (.inr asked) with ⟨s, p, stored⟩
  have wellFormed := mem_TopicSubscribeRegexp.mp (after _ s p stored)
  exact absurd wellFormed (by decide)

end VolantMQ.Broker
