import Mathlib.Algebra.Order.BigOperators.Group.List
import VolantMQ.Packet.Arrival

/-!
# What a clone carries

`Publish.Clone` starts from a blank packet and sets on it what is to be forwarded, one property
after the other. Every call of `property.Set` adds the length of the value to the length field of
the block, which is right as long as no property is set twice.
-/

namespace VolantMQ.Packet

open Lib

namespace Property

/-- A block that holds the given entries, with a length field that counts each of them. -/
structure Built (p : Property) (entries : List PropertyEntry) : Prop where
  held : p.properties.entries.Perm entries
  counted : p.len = UInt32.ofNat (weight entries)

theorem built_empty : Built empty [] := ⟨.refl _, rfl⟩

theorem set_of_allowed {p : Property} {t : PacketType} {id : PropertyID}
    (allowed : PropertyID.isValidPacketType id t = true) (val : PropertyValue) :
    p.set t id val =
      .ok ⟨p.properties.insert id val, p.len + UInt32.ofNat (propertyCalcLen id val)⟩ := by
  unfold PropertyID.isValidPacketType at allowed
  unfold set
  cases found : propertyAllowedMessageTypes.lookup id with
  | none => simp [found] at allowed
  | some types =>
      simp only [found] at allowed
      simp only [Option.isNone_eq_false_iff.mpr allowed, Bool.false_eq_true, if_false]

/-- Setting a property that is not there yet. -/
theorem Built.set {p : Property} {entries : List PropertyEntry} (built : p.Built entries)
    {t : PacketType} {id : PropertyID} (allowed : PropertyID.isValidPacketType id t = true)
    (val : PropertyValue) (fresh : ∀ entry ∈ entries, entry.1 ≠ id) :
    ∃ next, p.set t id val = .ok next ∧ next.Built (entries ++ [⟨id, val⟩]) := by
  refine ⟨_, set_of_allowed allowed val, ?_, ?_⟩
  · have absent : id ∉ p.properties := by
      intro present
      rcases List.exists_of_mem_keys present with ⟨old, member⟩
      exact fresh _ (built.held.mem_iff.mp member) rfl
    simp only [AList.entries_insert_of_notMem absent]
    exact (built.held.cons _).trans (List.perm_append_singleton _ _).symm
  · simp only [built.counted, weight_append, weight_cons, UInt32.ofNat_add]
    simp [weight]

theorem Built.weight_eq {p : Property} {entries : List PropertyEntry} (built : p.Built entries) :
    weight p.properties.entries = weight entries := (built.held.map _).sum_nat

/-- A block built from few enough well-shaped values can be encoded. -/
theorem Built.encodable {p : Property} {entries : List PropertyEntry} (built : p.Built entries)
    (shaped : ∀ entry ∈ entries, WellShaped (propertyTypeMap entry.1) entry.2)
    (short : weight entries + 5 < 2 ^ 32) : p.Encodable := by
  have length : p.len.toNat = weight entries := by
    rw [built.counted, UInt32.toNat_ofNat', Nat.mod_eq_of_lt (by omega)]
  refine ⟨fun entry member => shaped entry (built.held.mem_iff.mp member), ?_, by omega⟩
  rw [built.weight_eq, length]

end Property

namespace Publish

/-- The entries of a message under the given identifiers. -/
def selected (msg : Publish) (ids : List PropertyID) : List PropertyEntry :=
  ids.filterMap fun id => (msg.properties.properties.lookup id).map fun val => ⟨id, val⟩

theorem mem_selected {msg : Publish} {ids : List PropertyID} {entry : PropertyEntry} :
    entry ∈ msg.selected ids ↔
      entry.1 ∈ ids ∧ msg.properties.properties.lookup entry.1 = some entry.2 := by
  rcases entry with ⟨id, val⟩
  simp only [selected, List.mem_filterMap, Option.map_eq_some_iff]
  constructor
  · rintro ⟨other, member, found, look, same⟩
    rcases same with ⟨rfl, rfl⟩
    exact ⟨member, look⟩
  · rintro ⟨member, look⟩
    exact ⟨id, member, val, look, rfl⟩

theorem nodup_selected {msg : Publish} {ids : List PropertyID} (distinct : ids.Nodup) :
    (msg.selected ids).Nodup := by
  refine List.Nodup.filterMap ?_ distinct
  intro first second entry left right
  simp only [Option.mem_def, Option.map_eq_some_iff] at left right
  rcases left with ⟨_, _, rfl⟩
  rcases right with ⟨_, _, same⟩
  exact (congrArg Sigma.fst same).symm

/-- What is selected weighs no more than all the properties of the message. -/
theorem weight_selected_le {msg : Publish} {ids : List PropertyID} (distinct : ids.Nodup) :
    weight (msg.selected ids) ≤ weight msg.properties.properties.entries := by
  have inside : msg.selected ids ⊆ msg.properties.properties.entries := by
    intro entry member
    exact AList.mem_lookup_iff.mp (mem_selected.mp member).2
  rcases List.subperm_of_subset (nodup_selected distinct) inside with ⟨list, same, sublist⟩
  calc weight (msg.selected ids) = weight list := (same.map _).sum_nat.symm
    _ ≤ weight msg.properties.properties.entries :=
        (sublist.map _).sum_le_sum fun _ _ => Nat.zero_le _

/-- Forwarding the properties under distinct identifiers that are not there yet. -/
theorem foldlM_forwardProperty (msg : Publish) {ids : List PropertyID}
    (known : ∀ id ∈ ids, id ∈ publishPropertyIDs) (distinct : ids.Nodup) {pkt : Publish}
    {entries : List PropertyEntry} (built : pkt.properties.Built entries)
    (fresh : ∀ entry ∈ entries, entry.1 ∉ ids) :
    ∃ properties, ids.foldlM (forwardProperty msg) pkt = .ok { pkt with properties } ∧
      properties.Built (entries ++ msg.selected ids) := by
  induction ids generalizing pkt entries with
  | nil => exact ⟨pkt.properties, rfl, by simpa [selected] using built⟩
  | cons id ids ih =>
      rw [List.nodup_cons] at distinct
      have knownTail : ∀ id ∈ ids, id ∈ publishPropertyIDs :=
        fun other member => known other (by simp [member])
      rw [List.foldlM_cons]
      cases look : msg.properties.properties.lookup id with
      | none =>
          have skipped : forwardProperty msg pkt id = .ok pkt := by simp [forwardProperty, look]
          have nothing : msg.selected (id :: ids) = msg.selected ids := by simp [selected, look]
          rw [skipped, nothing]
          exact ih knownTail distinct.2 built
            fun entry member => fun there => fresh entry member (by simp [there])
      | some val =>
          have notThere : ∀ entry ∈ entries, entry.1 ≠ id :=
            fun entry member same => fresh entry member (by simp [same])
          rcases built.set (isValidPacketType_of_mem (known id (by simp))) val notThere with
            ⟨next, run, builtNext⟩
          have stepped : forwardProperty msg pkt id = .ok { pkt with properties := next } := by
            simp [forwardProperty, look, run, Except.map]
          have one : entries ++ msg.selected (id :: ids) =
              (entries ++ [⟨id, val⟩]) ++ msg.selected ids := by simp [selected, look]
          rw [stepped, one]
          refine ih knownTail distinct.2 builtNext ?_
          intro entry member there
          rcases List.mem_append.mp member with old | new
          · exact fresh entry old (by simp [there])
          · rw [List.mem_singleton] at new
            rw [new] at there
            exact distinct.1 there

/-- The flags that `Set` leaves on a blank packet. -/
def cloneFlags (qos : QosType) (retain : Bool) : UInt8 :=
  putFlag (putFlag (putQoS PacketType.PUBLISH.defaultFlags qos) maskPublishFlagDup false)
    maskPublishFlagRetain retain

/-- The properties a clone for version `v` carries. -/
def forwardedEntries (msg : Publish) (v : ProtocolVersion) : List PropertyEntry :=
  if msg.version = ProtocolV50 ∧ v = ProtocolV50 then msg.selected forwardedProperties else []

theorem nodup_forwardedProperties : forwardedProperties.Nodup := by decide

theorem forwardedProperties_subset : forwardedProperties ⊆ publishPropertyIDs := by decide

theorem weight_forwardedEntries_le (msg : Publish) (v : ProtocolVersion) :
    weight (msg.forwardedEntries v) ≤ weight msg.properties.properties.entries := by
  unfold forwardedEntries
  split
  · exact weight_selected_le nodup_forwardedProperties
  · exact Nat.zero_le _

theorem mem_forwardedEntries {msg : Publish} {v : ProtocolVersion} {entry : PropertyEntry}
    (member : entry ∈ msg.forwardedEntries v) :
    entry.1 ∈ forwardedProperties ∧ msg.properties.properties.lookup entry.1 = some entry.2 := by
  unfold forwardedEntries at member
  split at member
  · exact mem_selected.mp member
  · simp at member

/-- `Clone` of any message succeeds: what it forwards may be set on a PUBLISH. -/
theorem clone_built (msg : Publish) (v : ProtocolVersion) :
    ∃ pkt, msg.clone v = .ok pkt ∧ pkt.version = msg.version ∧
      pkt.properties.Built (msg.forwardedEntries v) := by
  have blank : ∃ pkt : Publish, pkt.version = msg.version ∧ pkt.properties.Built [] ∧
      msg.clone v = if msg.version = ProtocolV50 ∧ v = ProtocolV50 then
        forwardedProperties.foldlM (forwardProperty msg) pkt else .ok pkt := by
    cases accepted : (Publish.new msg.version).set msg.topic msg.payload msg.qos msg.retain
        false with
    | error e =>
        refine ⟨{ Publish.new msg.version with expireAt := msg.expireAt }, rfl,
          Property.built_empty, ?_⟩
        simp only [clone, accepted]
    | ok pkt =>
        have kept : pkt.version = msg.version ∧ pkt.properties = .empty := by
          unfold set at accepted
          split at accepted
          · simp at accepted
          · split at accepted
            · simp at accepted
            · rw [← Except.ok.inj accepted]
              exact ⟨rfl, rfl⟩
        refine ⟨{ pkt with expireAt := msg.expireAt }, kept.1, ?_, by simp only [clone, accepted]⟩
        change pkt.properties.Built []
        rw [kept.2]
        exact Property.built_empty
  rcases blank with ⟨pkt, version, empty, run⟩
  rw [run, forwardedEntries]
  split
  · rcases foldlM_forwardProperty msg forwardedProperties_subset nodup_forwardedProperties empty
      (by simp) with ⟨properties, folded, built⟩
    exact ⟨_, folded, version, by simpa using built⟩
  · exact ⟨pkt, rfl, version, empty⟩

/-- `Clone` of a message with a valid topic and QoS. -/
theorem clone_eq (msg : Publish) (v : ProtocolVersion) (topicValid : validTopic msg.topic = true)
    (qosValid : msg.qos.isValid = true) :
    ∃ properties, properties.Built (msg.forwardedEntries v) ∧
      msg.clone v = .ok
        { Publish.new msg.version with
          topic := msg.topic
          payload := msg.payload
          mFlags := cloneFlags msg.qos msg.retain
          expireAt := msg.expireAt
          properties } := by
  have accepted : (Publish.new msg.version).set msg.topic msg.payload msg.qos msg.retain false =
      .ok { Publish.new msg.version with
        topic := msg.topic
        payload := msg.payload
        mFlags := cloneFlags msg.qos msg.retain } := by
    simp [set, topicValid, qosValid, cloneFlags, Publish.new]
  unfold clone forwardedEntries
  simp only [accepted]
  split
  · rcases @foldlM_forwardProperty msg _ forwardedProperties_subset nodup_forwardedProperties
      { Publish.new msg.version with
        topic := msg.topic
        payload := msg.payload
        mFlags := cloneFlags msg.qos msg.retain
        expireAt := msg.expireAt } [] Property.built_empty (by simp) with ⟨properties, run, built⟩
    exact ⟨properties, by simpa using built, run⟩
  · exact ⟨.empty, Property.built_empty, rfl⟩

end Publish

end VolantMQ.Packet
