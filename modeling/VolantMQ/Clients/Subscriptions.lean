import VolantMQ.Topics.Node

/-!
# Persisted subscriptions

At shutdown the clients manager stores the subscriptions of every subscriber under its client
identifier, and at the next start it reads them back. A record is the protocol version followed by
one entry for each filter: the filter with its length, the options and the subscription identifier.

The writer first takes the subscriber offline, which deletes its subscriptions. The reader stops
one byte before the end of the record.
-/

namespace VolantMQ.Clients

open Lib Packet Topics

/-- `subscriber.Subscriptions` -/
abbrev Subscriptions := AList fun _ : GoString => SubscriptionParams

/-- One entry of the map. -/
abbrev Subscription := Σ _ : GoString, SubscriptionParams

/-- The parts of `subscriber.Type` that the manager uses through `subscriber.ConnectionProvider`. -/
structure ConnectionProvider where
  hash : Hash
  version : ProtocolVersion
  subscriptions : Subscriptions
  /-- The channel `isOnline` is open. -/
  isOnline : Bool

/-- One round of the loop of `Offline`: the subscription is removed from the trie and the map. -/
def ConnectionProvider.drop (state : ConnectionProvider × Topics.Provider) (entry : Subscription) :
    ConnectionProvider × Topics.Provider :=
  ({ state.1 with subscriptions := state.1.subscriptions.erase entry.1 },
    (state.2.unSubscribe entry.1 (some state.1.hash)).1)

/-- `Offline`; waiting for publishes that are under way does not change this part of the state. -/
def ConnectionProvider.offline (s : ConnectionProvider) (topics : Topics.Provider)
    (order : MapOrder Subscription) (shutdown : Bool) : ConnectionProvider × Topics.Provider :=
  let (s, topics) :=
    if shutdown then (order.range s.subscriptions.entries).foldl drop (s, topics) else (s, topics)
  ({ s with isOnline := false }, topics)

/-- `total, _ := packet.WriteLPBytes(buf, topic)`: a topic that is too long is left out. -/
def writeTopic (topic : GoString) : Writer PacketError := fun dest =>
  match writeLPBytes topic dest with
  | .ok result => .ok result
  | .error _ => .ok (dest, if MaxLPString < topic.length then 0 else 2 + topic.length)

/-- The second loop of `storeSubscribers` for one subscription. -/
def writeEntry (entry : Subscription) : Writer PacketError :=
  .seq (writeTopic entry.1) <| .seq (.put [entry.2.Ops]) (.put (putUint32 entry.2.ID))

/-- The space that the first loop of `storeSubscribers` reserves for one subscription. -/
def entrySize (entry : Subscription) : ℕ := 2 + entry.1.length + 1 + 4

/-- The record that `storeSubscribers` builds. -/
def encodeSubscriber (version : ProtocolVersion) (topics : Subscriptions)
    (order : MapOrder Subscription) : Except (Fault PacketError) Bytes :=
  let size := (topics.entries.map entrySize).sum
  (Writer.seq (.put [version]) (.each writeEntry (order.range topics.entries))
    (List.replicate (size + 1) 0)).map Prod.fst

/-- The clients manager with its persistence backend, as far as subscriptions are concerned. -/
structure Manager where
  subscribers : AList fun _ : GoString => ConnectionProvider
  topics : Topics.Provider
  /-- What the backend has for `SubscriptionsStore`, by client identifier. -/
  stored : AList fun _ : GoString => Bytes

/-- The callback of `storeSubscribers`. -/
def Manager.storeSubscriber (order : MapOrder Subscription) (m : Manager)
    (entry : Σ _ : GoString, ConnectionProvider) : Except (Fault PacketError) Manager :=
  let (s, topics) := entry.2.offline m.topics order true
  match encodeSubscriber s.version s.subscriptions order with
  | .error fault => .error fault
  | .ok buf => .ok
      { subscribers := m.subscribers.insert entry.1 s
        topics
        stored := m.stored.insert entry.1 buf }

/-- `storeSubscribers` -/
def Manager.storeSubscribers (m : Manager)
    (visit : MapOrder (Σ _ : GoString, ConnectionProvider)) (order : MapOrder Subscription) :
    Except (Fault PacketError) Manager :=
  (visit.range m.subscribers.entries).foldlM (storeSubscriber order) m

/-- `subscriberConfig` -/
structure SubscriberConfig where
  version : ProtocolVersion
  topics : Subscriptions

/-- The loop of `loadSubscriber` on `from[offset:]`. As `remaining` is one less than the length of
the record, the loop ends when one byte is left. -/
def loadEntries (left : Bytes) (subscriptions : Subscriptions) :
    Except (Fault PacketError) Subscriptions :=
  if left.length = 1 then .ok subscriptions
  else
    match readLPBytes left with
    | .error fault => .error fault
    | .ok (t, total) =>
        match _tail : left.drop total with
        | ops :: b3 :: b2 :: b1 :: b0 :: rest =>
            loadEntries rest (subscriptions.insert t ⟨uint32 b3 b2 b1 b0, ops, 0⟩)
        | _ => .error .panic
termination_by left.length
decreasing_by
  have length := congrArg List.length _tail
  simp only [List.length_drop, List.length_cons] at length
  omega

/-- `loadSubscriber` -/
def loadSubscriber : Bytes → Except (Fault PacketError) SubscriberConfig
  | [] => .error .panic
  | version :: left => (loadEntries left ∅).map fun topics => ⟨version, topics⟩

/-- The bytes of one subscription. -/
def entryBytes (entry : Subscription) : Bytes :=
  lpBytes entry.1 ++ entry.2.Ops :: putUint32 entry.2.ID

/-- The record of a version and a list of subscriptions. -/
def layout (version : ProtocolVersion) (entries : List Subscription) : Bytes :=
  version :: entries.flatMap entryBytes

/-- The filter of an entry fits its length prefix. -/
def Fits (entry : Subscription) : Prop := entry.1.length ≤ MaxLPString

section Layout

variable {entry : Subscription} {entries : List Subscription} {version : ProtocolVersion}

theorem length_entryBytes (entry : Subscription) : (entryBytes entry).length = entrySize entry := by
  simp only [entryBytes, entrySize, List.length_append, length_lpBytes, List.length_cons,
    length_putUint32]

theorem length_flatMap_entryBytes (entries : List Subscription) :
    (entries.flatMap entryBytes).length = (entries.map entrySize).sum := by
  rw [List.length_flatMap]
  simp only [length_entryBytes]

theorem length_layout (version : ProtocolVersion) (entries : List Subscription) :
    (layout version entries).length = (entries.map entrySize).sum + 1 := by
  rw [layout, List.length_cons, length_flatMap_entryBytes]

theorem emits_writeEntry (fits : Fits entry) :
    Emits (fun _ => True) (writeEntry entry) (entryBytes entry) := by
  have topic : Emits (fun _ => True) (writeTopic entry.1) (lpBytes entry.1) := by
    intro dest _ enough
    have written := @emits_writeLPBytes (fun _ => True) _ fits dest trivial enough
    simp only [writeTopic, written]
  exact topic.seq (fun _ _ _ => trivial)
    ((emits_put [entry.2.Ops]).seq (fun _ _ _ => trivial) (emits_put (putUint32 entry.2.ID)))

/-- `storeSubscribers` lays the subscriptions out in the order of its loop. -/
theorem encodeSubscriber_eq {topics : Subscriptions} (fits : ∀ entry ∈ topics.entries, Fits entry)
    (order : MapOrder Subscription) :
    encodeSubscriber version topics order = .ok (layout version (order.range topics.entries)) := by
  have same := order.perm topics.entries
  have entries : Emits (fun _ => True) (Writer.each writeEntry (order.range topics.entries))
      ((order.range topics.entries).flatMap entryBytes) :=
    .each (fun _ _ _ => trivial) fun entry member =>
      emits_writeEntry (fits entry (same.mem_iff.mp member))
  have record : Emits (fun _ => True)
      (Writer.seq (.put [version]) (.each writeEntry (order.range topics.entries)))
      (layout version (order.range topics.entries)) :=
    (emits_put [version]).seq (fun _ _ _ => trivial) entries
  have size : (layout version (order.range topics.entries)).length =
      (topics.entries.map entrySize).sum + 1 := by
    rw [length_layout, (same.map entrySize).sum_nat]
  rw [encodeSubscriber, record _ trivial (by rw [size, List.length_replicate]), size,
    List.drop_of_length_le (by rw [List.length_replicate])]
  simp [Except.map]

end Layout

/-- The options and the identifier of a subscription, which are what a record keeps of it. -/
def kept (p : SubscriptionParams) : SubscriptionOptions × UInt32 := (p.Ops, p.ID)

/-- A record that `storeSubscribers` writes. -/
def Written (version : ProtocolVersion) (topics : Subscriptions) (record : Bytes) : Prop :=
  (∀ entry ∈ topics.entries, Fits entry) ∧
    ∃ order, encodeSubscriber version topics order = .ok record

/-- `loadSubscriber` gives back what was written. -/
def Restores (version : ProtocolVersion) (topics : Subscriptions) (record : Bytes) : Prop :=
  ∃ config, loadSubscriber record = .ok config ∧ config.version = version ∧
    ∀ filter, (config.topics.lookup filter).map kept = (topics.lookup filter).map kept

/-- What is written is read back, and nothing else makes the reader index outside its input. -/
def ReadsProperly (record : Bytes) : Prop :=
  (∀ version topics, Written version topics record → Restores version topics record) ∧
    ((¬∃ version topics, Written version topics record) → loadSubscriber record ≠ .error .panic)

/-- After some complete entries, the bytes break off behind the filter of another one. -/
inductive BreaksOff : Bytes → Prop where
  | here {topic tail : Bytes} (fits : topic.length ≤ MaxLPString) (short : tail.length < 5) :
      BreaksOff (lpBytes topic ++ tail)
  | later {entry : Subscription} {rest : Bytes} (fits : Fits entry) (below : BreaksOff rest) :
      BreaksOff (entryBytes entry ++ rest)

section Reading

variable {entry : Subscription} {subscriptions : Subscriptions}

theorem loadEntries_nil :
    loadEntries [] subscriptions = .error (.error .ErrInsufficientDataSize) := by
  rw [loadEntries]
  rfl

/-- One round of the loop on a complete entry. -/
theorem loadEntries_entry (fits : Fits entry) (rest : Bytes) :
    loadEntries (entryBytes entry ++ rest) subscriptions =
      loadEntries rest (subscriptions.insert entry.1 ⟨entry.2.ID, entry.2.Ops, 0⟩) := by
  have more : ¬(entryBytes entry ++ rest).length = 1 := by
    rw [List.length_append, length_entryBytes, entrySize]
    omega
  have read : readLPBytes (entryBytes entry ++ rest) = .ok (entry.1, 2 + entry.1.length) := by
    rw [entryBytes, List.append_assoc]
    exact readLPBytes_lpBytes fits _
  have tail : (entryBytes entry ++ rest).drop (2 + entry.1.length) =
      entry.2.Ops :: (putUint32 entry.2.ID ++ rest) := by
    rw [entryBytes, List.append_assoc, ← length_lpBytes, List.drop_left, List.cons_append]
  rw [loadEntries, if_neg more]
  simp only [read]
  rw [tail]
  simp only [putUint32, List.cons_append, List.nil_append, uint32_putUint32]

/-- The reader runs into the end of what was written: it looks for one more filter. -/
theorem loadEntries_written {entries : List Subscription} (fits : ∀ entry ∈ entries, Fits entry) :
    loadEntries (entries.flatMap entryBytes) subscriptions =
      .error (.error .ErrInsufficientDataSize) := by
  induction entries generalizing subscriptions with
  | nil => exact loadEntries_nil
  | cons entry entries ih =>
      rw [List.flatMap_cons, loadEntries_entry (fits entry (by simp))]
      exact ih fun other member => fits other (by simp [member])

theorem loadEntries_of_breaksOff {left : Bytes} (breaks : BreaksOff left) :
    loadEntries left subscriptions = .error .panic := by
  induction breaks generalizing subscriptions with
  | later fits _ ih => rw [loadEntries_entry fits, ih]
  | @here topic tail fits short =>
      have more : ¬(lpBytes topic ++ tail).length = 1 := by
        rw [List.length_append, length_lpBytes]
        omega
      rw [loadEntries, if_neg more]
      simp only [readLPBytes_lpBytes fits]
      rw [← length_lpBytes, List.drop_left]
      split
      · simp only [List.length_cons] at short
        omega
      · rfl

theorem readLPBytes_not_panic (buf : Bytes) : readLPBytes buf ≠ .error .panic := by
  rcases buf with _ | ⟨high, _ | ⟨low, body⟩⟩
  · simp [readLPBytes]
  · simp [readLPBytes]
  · simp only [readLPBytes]
    split <;> simp

theorem breaksOff_of_loadEntries {left : Bytes}
    (panics : loadEntries left subscriptions = .error .panic) : BreaksOff left := by
  induction left, subscriptions using loadEntries.induct with
  | case1 left subscriptions last =>
      rw [loadEntries, if_pos last] at panics
      simp at panics
  | case2 left subscriptions more fault read =>
      rw [loadEntries, if_neg more] at panics
      simp only [read, Except.error.injEq] at panics
      exact absurd (panics ▸ read) (readLPBytes_not_panic left)
  | case3 left subscriptions more t total read ops b3 b2 b1 b0 rest tail ih =>
      rw [loadEntries, if_neg more] at panics
      simp only [read] at panics
      rw [tail] at panics
      have whole : left = entryBytes ⟨t, uint32 b3 b2 b1 b0, ops, 0⟩ ++ rest := by
        rw [← List.take_append_drop total left, take_of_readLPBytes read, tail, entryBytes,
          putUint32_uint32]
        simp
      rw [whole]
      exact .later (readLPBytes_eq_ok read).1 (ih panics)
  | case4 left subscriptions more t total read short =>
      rw [← List.take_append_drop total left, take_of_readLPBytes read]
      refine .here (readLPBytes_eq_ok read).1 ?_
      generalize left.drop total = tail at short
      rcases tail with _ | ⟨_, _ | ⟨_, _ | ⟨_, _ | ⟨_, _ | ⟨_, _⟩⟩⟩⟩⟩
      all_goals first
        | exact (short _ _ _ _ _ _ rfl).elim
        | simp

/-- When the reader indexes outside its input. -/
theorem loadSubscriber_panics_iff (version : ProtocolVersion) (left : Bytes) :
    loadSubscriber (version :: left) = .error .panic ↔ BreaksOff left := by
  rw [loadSubscriber]
  constructor
  · intro panics
    cases run : loadEntries left ∅ with
    | error fault =>
        rw [run] at panics
        simp only [Except.map, Except.error.injEq] at panics
        exact breaksOff_of_loadEntries (panics ▸ run)
    | ok topics => simp [run, Except.map] at panics
  · intro breaks
    rw [loadEntries_of_breaksOff breaks]
    rfl

/-- No record that was written is read back. -/
theorem loadSubscriber_of_written {version : ProtocolVersion} {topics : Subscriptions}
    {record : Bytes} (written : Written version topics record) :
    loadSubscriber record = .error (.error .ErrInsufficientDataSize) := by
  rcases written with ⟨fits, order, encoded⟩
  rw [encodeSubscriber_eq fits order, Except.ok.injEq] at encoded
  rw [← encoded, layout, loadSubscriber, loadEntries_written]
  · rfl
  · exact fun entry member => fits entry ((order.perm _).mem_iff.mp member)

/-- A record is treated properly exactly when it is not one that was written, and does not break
off behind a filter. -/
theorem readsProperly_iff (version : ProtocolVersion) (left : Bytes) :
    ReadsProperly (version :: left) ↔
      (¬∃ v topics, Written v topics (version :: left)) ∧ ¬BreaksOff left := by
  rw [← loadSubscriber_panics_iff version left]
  constructor
  · rintro ⟨restored, safe⟩
    have foreign : ¬∃ v topics, Written v topics (version :: left) := by
      rintro ⟨v, topics, written⟩
      rcases restored v topics written with ⟨config, loaded, -⟩
      rw [loadSubscriber_of_written written] at loaded
      simp at loaded
    exact ⟨foreign, safe foreign⟩
  · rintro ⟨foreign, safe⟩
    exact ⟨fun v topics written => absurd ⟨v, topics, written⟩ foreign, fun _ => safe⟩

/-- The record of a V3.1.1 subscriber with one subscription, to `a` with QoS 1. -/
def sampleRecord : Bytes := [0x04, 0x00, 0x01, 0x61, 0x01, 0x00, 0x00, 0x00, 0x00]

/-- It is not read back, and a record that ends behind its first length prefix stops the broker. -/
theorem sampleRecord_not_restored :
    encodeSubscriber ProtocolV311 (AList.singleton [0x61] ⟨0, 1, 1⟩) (.insertion _) =
        .ok sampleRecord ∧
      loadSubscriber sampleRecord = .error (.error .ErrInsufficientDataSize) ∧
      ¬ReadsProperly sampleRecord ∧
      loadSubscriber [0x04, 0x00, 0x00] = .error .panic ∧ ¬ReadsProperly [0x04, 0x00, 0x00] := by
  have fits : ∀ entry ∈ (AList.singleton [0x61] ⟨0, 1, 1⟩ : Subscriptions).entries, Fits entry := by
    intro entry member
    rw [List.mem_singleton.mp member]
    exact Nat.le_of_ble_eq_true rfl
  have encoded : encodeSubscriber ProtocolV311 (AList.singleton [0x61] ⟨0, 1, 1⟩) (.insertion _) =
      .ok sampleRecord := rfl
  have written : Written ProtocolV311 (AList.singleton [0x61] ⟨0, 1, 1⟩) sampleRecord :=
    ⟨fits, _, encoded⟩
  have breaks : BreaksOff [0x00, 0x00] := @BreaksOff.here [] [] (Nat.zero_le _) (by decide)
  refine ⟨encoded, loadSubscriber_of_written written, fun proper => ?_,
    (loadSubscriber_panics_iff _ _).mpr breaks, fun proper => ?_⟩
  · rcases proper.1 _ _ written with ⟨config, loaded, -⟩
    rw [loadSubscriber_of_written written] at loaded
    simp at loaded
  · refine proper.2 ?_ ((loadSubscriber_panics_iff _ _).mpr breaks)
    rintro ⟨v, topics, foreign⟩
    have refused := loadSubscriber_of_written foreign
    rw [(loadSubscriber_panics_iff _ _).mpr breaks] at refused
    simp at refused

end Reading

/-- A record that encodes a version and a map. -/
def Encodes (version : ProtocolVersion) (topics : Subscriptions) (record : Bytes) : Prop :=
  ∃ entries, entries.Perm topics.entries ∧ record = layout version entries

/-- After `storeSubscribers` every client has a record of the subscriptions it had before. -/
def Manager.Preserves (m : Manager) (visit : MapOrder (Σ _ : GoString, ConnectionProvider))
    (order : MapOrder Subscription) : Prop :=
  ∃ after, m.storeSubscribers visit order = .ok after ∧
    ∀ id s, m.subscribers.lookup id = some s →
      ∃ record, after.stored.lookup id = some record ∧ Encodes s.version s.subscriptions record

section Shutdown

variable {s : ConnectionProvider} {topics : Topics.Provider} {order : MapOrder Subscription}

theorem foldl_drop (entries : List Subscription) (s : ConnectionProvider)
    (topics : Topics.Provider) :
    (entries.foldl ConnectionProvider.drop (s, topics)).1 = { s with
      subscriptions := entries.foldl (fun map entry => map.erase entry.1) s.subscriptions } := by
  induction entries generalizing s topics with
  | nil => rfl
  | cons entry entries ih =>
      rw [List.foldl_cons, List.foldl_cons, ConnectionProvider.drop, ih]

theorem mem_foldl_erase {entries : List Subscription} {map : Subscriptions} {filter : GoString}
    (member : filter ∈ entries.foldl (fun map entry => map.erase entry.1) map) :
    filter ∈ map ∧ ∀ entry ∈ entries, entry.1 ≠ filter := by
  induction entries generalizing map with
  | nil => exact ⟨member, by simp⟩
  | cons entry entries ih =>
      rcases ih member with ⟨there, others⟩
      rw [AList.mem_erase] at there
      refine ⟨there.2, fun other found => ?_⟩
      rcases List.mem_cons.mp found with rfl | later
      · exact Ne.symm there.1
      · exact others other later

/-- Going offline at shutdown leaves no subscriptions. -/
theorem offline_true (s : ConnectionProvider) (topics : Topics.Provider)
    (order : MapOrder Subscription) :
    (s.offline topics order true).1 = { s with subscriptions := ∅, isOnline := false } := by
  have none : (order.range s.subscriptions.entries).foldl (fun map entry => map.erase entry.1)
      s.subscriptions = ∅ := by
    apply AList.ext
    refine List.eq_nil_iff_forall_not_mem.mpr fun entry found => ?_
    rcases mem_foldl_erase (List.mem_keys_of_mem found) with ⟨there, others⟩
    rcases List.exists_of_mem_keys there with ⟨p, held⟩
    exact others _ ((order.perm _).mem_iff.mpr held) rfl
  simp only [ConnectionProvider.offline, if_true, foldl_drop, none]

theorem encodeSubscriber_empty (version : ProtocolVersion) :
    encodeSubscriber version ∅ order = .ok [version] := by
  have nothing : order.range (∅ : Subscriptions).entries = [] := (order.perm []).eq_nil
  rw [encodeSubscriber_eq (by simp), nothing]
  rfl

/-- The callback stores the version and nothing else. -/
theorem storeSubscriber_eq (m : Manager) (entry : Σ _ : GoString, ConnectionProvider) :
    ∃ after, m.storeSubscriber order entry = .ok after ∧
      after.stored = m.stored.insert entry.1 [entry.2.version] := by
  have offline := offline_true entry.2 m.topics order
  simp only [Manager.storeSubscriber, offline, encodeSubscriber_empty]
  exact ⟨_, rfl, rfl⟩

theorem storeSubscribers_run {entries : List (Σ _ : GoString, ConnectionProvider)}
    (distinct : entries.NodupKeys) (m : Manager) :
    ∃ after, entries.foldlM (Manager.storeSubscriber order) m = .ok after ∧
      (∀ entry ∈ entries, after.stored.lookup entry.1 = some [entry.2.version]) ∧
      ∀ id, (∀ entry ∈ entries, entry.1 ≠ id) → after.stored.lookup id = m.stored.lookup id := by
  induction entries generalizing m with
  | nil => exact ⟨m, rfl, by simp, fun _ _ => rfl⟩
  | cons entry entries ih =>
      rw [List.nodupKeys_cons] at distinct
      rcases storeSubscriber_eq m entry with ⟨next, run, stored⟩
      rcases ih distinct.2 next with ⟨after, rest, held, untouched⟩
      refine ⟨after, by rw [List.foldlM_cons, run]; exact rest, ?_, ?_⟩
      · intro other member
        rcases List.mem_cons.mp member with rfl | later
        · rw [untouched, stored, AList.lookup_insert]
          intro later found same
          exact distinct.1 (same ▸ List.mem_keys_of_mem found)
        · exact held other later
      · intro id absent
        rw [untouched id fun other later => absent other (by simp [later]), stored,
          AList.lookup_insert_ne (Ne.symm (absent entry (by simp)))]

/-- The version alone encodes the empty map only. -/
theorem encodes_version_iff (version : ProtocolVersion) (topics : Subscriptions) :
    Encodes version topics [version] ↔ topics = ∅ := by
  constructor
  · rintro ⟨entries, same, record⟩
    have size := congrArg List.length record
    rw [length_layout] at size
    apply AList.ext
    cases entries with
    | nil => exact same.symm.eq_nil
    | cons entry entries =>
        simp only [List.map_cons, List.sum_cons, entrySize, List.length_singleton] at size
        omega
  · rintro rfl
    exact ⟨[], .refl _, rfl⟩

/-- The records keep the subscriptions exactly when there are none. -/
theorem preserves_iff (m : Manager) (visit : MapOrder (Σ _ : GoString, ConnectionProvider))
    (order : MapOrder Subscription) :
    m.Preserves visit order ↔
      ∀ id s, m.subscribers.lookup id = some s → s.subscriptions = ∅ := by
  have same := visit.perm m.subscribers.entries
  have distinct : (visit.range m.subscribers.entries).NodupKeys :=
    (List.perm_nodupKeys same).mpr m.subscribers.nodupKeys
  rcases @storeSubscribers_run order _ distinct m with ⟨after, run, held, -⟩
  have record : ∀ id s, m.subscribers.lookup id = some s →
      after.stored.lookup id = some [s.version] :=
    fun id s found => held ⟨id, s⟩ (same.mem_iff.mpr (AList.mem_lookup_iff.mp found))
  constructor
  · rintro ⟨other, again, all⟩ id s found
    rw [Manager.storeSubscribers, run, Except.ok.injEq] at again
    subst again
    rcases all id s found with ⟨buf, stored, encodes⟩
    rw [record id s found, Option.some.injEq] at stored
    subst stored
    exact (encodes_version_iff s.version s.subscriptions).mp encodes
  · intro none
    refine ⟨after, run, fun id s found => ⟨_, record id s found, ?_⟩⟩
    exact (encodes_version_iff s.version s.subscriptions).mpr (none id s found)

/-- A manager with one V3.1.1 client that has subscribed to `a`. -/
def sampleManager : Manager :=
  ⟨AList.singleton [0x63] ⟨1, ProtocolV311, AList.singleton [0x61] ⟨0, 1, 1⟩, false⟩,
    .empty false, ∅⟩

/-- The subscription is gone from its record. -/
theorem sampleManager_forgets :
    (∃ after, sampleManager.storeSubscribers (.insertion _) (.insertion _) = .ok after ∧
        after.stored.lookup [0x63] = some [ProtocolV311]) ∧
      ¬sampleManager.Preserves (.insertion _) (.insertion _) := by
  refine ⟨⟨_, rfl, rfl⟩, ?_⟩
  rintro ⟨after, run, all⟩
  have stored : after.stored.lookup [0x63] = some [ProtocolV311] := by
    rw [← Except.ok.inj run]
    rfl
  rcases all [0x63] _ rfl with ⟨record, found, encodes⟩
  rw [stored, Option.some.injEq] at found
  subst found
  have none := congrArg AList.entries ((encodes_version_iff _ _).mp encodes)
  simp at none

end Shutdown

end VolantMQ.Clients
