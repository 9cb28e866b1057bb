import VolantMQ.Lib.Run
import VolantMQ.Packet.Clone
import VolantMQ.Packet.Exact

/-!
# The length of a property block

`property.len` is counted along the way: `Set` adds what the new value will take, and the decoder
adds the bytes that it has read. Nothing is taken off when a value is replaced, a text that is too
long to be written is counted, and a list of byte strings is not. So the count is the number of
bytes that the entries take only as long as values are set once, the values are ones that the
counting and the writing functions agree on, and what was read had no integer longer than
necessary.
-/

namespace VolantMQ.Packet

open Lib

namespace Property

theorem count_wireItems_single (id other : PropertyID) (val : PropertyValue) :
    ((wireItems [⟨id, val⟩]).map Prod.fst).count other =
      if other = id then occurrences id val else 0 := by
  have ids : (wireItems [⟨id, val⟩]).map Prod.fst = List.replicate (occurrences id val) id := by
    simp [wireItems, occurrences, Function.comp_def, List.map_const']
  rw [ids, List.count_replicate]
  by_cases same : other = id
  · simp [same]
  · simp [same, Ne.symm same]

theorem count_wireItems {entries : List PropertyEntry} (keys : entries.NodupKeys)
    (id : PropertyID) : ((wireItems entries).map Prod.fst).count id =
      ((entries.dlookup id).map (occurrences id)).getD 0 := by
  induction entries with
  | nil => rfl
  | cons entry entries ih =>
      rcases entry with ⟨key, val⟩
      rw [List.nodupKeys_cons] at keys
      rw [wireItems_cons, List.map_append, List.count_append, count_wireItems_single, ih keys.2]
      by_cases same : id = key
      · subst same
        rw [List.dlookup_eq_none.mpr keys.1, List.dlookup_cons_eq]
        simp
      · rw [if_neg same, List.dlookup_cons_ne _ _ same, Nat.zero_add]

/-- How often an identifier is written does not depend on the order. -/
theorem count_written (p : Property) (order : MapOrder PropertyEntry) (id : PropertyID) :
    ((wireItems (order.range p.properties.entries)).map Prod.fst).count id = p.written id := by
  have same := order.perm p.properties.entries
  have keys : (order.range p.properties.entries).NodupKeys :=
    (List.perm_nodupKeys same).mpr p.properties.nodupKeys
  rw [count_wireItems keys, List.perm_dlookup id keys same]
  rfl

theorem occurrences_eq_zero {id : PropertyID} {val : PropertyValue}
    (countable : Countable (propertyTypeMap id) val) (nothing : propertyCalcLen id val = 0) :
    occurrences id val = 0 := by
  have length := @propertyCalcLen_eq_length ⟨id, val⟩ countable
  rw [nothing] at length
  have empty : wireItems [⟨id, val⟩] = [] := by
    cases found : wireItems [⟨id, val⟩] with
    | nil => rfl
    | cons item items =>
        have positive := uvarintCalc_pos item.1
        rw [found, blockBytes_cons, List.length_append, length_itemBytes] at length
        omega
  have ids := count_wireItems_single id id val
  rw [empty, if_pos rfl] at ids
  exact ids.symm

/-- A property object, with the identifiers that were accepted when it was decoded. -/
structure Object where
  property : Property
  accepted : List PropertyID

/-- The ways to come by a property object or to change it. -/
inductive Op where
  | set (id : PropertyID) (val : PropertyValue)
  | decode (src : Bytes)

/-- An object without properties. -/
def Object.blank : Object := ⟨.empty, []⟩

/-- A call of `Set`, which may fail, or the decoding of a block into a new object. -/
def Object.step (t : PacketType) (o : Object) : Op → Object
  | .set id val =>
      match o.property.set t id val with
      | .ok property => { o with property }
      | .error _ => o
  | .decode src =>
      match Property.empty.decode t src with
      | .ok (property, _) => ⟨property, (items src).map Item.id⟩
      | .error _ => o

/-- The length of an object is what its entries take when they are written, that of the whole
block is right as well, and no identifier that was accepted is left out. -/
structure Object.Bookkept (o : Object) : Prop where
  entries : ∀ (order : MapOrder PropertyEntry) (dest : Bytes), o.property.len.toNat ≤ dest.length →
    ∃ written, Writer.each (fun entry : PropertyEntry => propertyEncodeType entry.1 entry.2)
        (order.range o.property.properties.entries) dest =
      .ok (blockBytes written ++ dest.drop o.property.len.toNat, o.property.len.toNat) ∧
      o.accepted.Subperm (written.map Prod.fst)
  block : ∀ (order : MapOrder PropertyEntry) (dest : Bytes),
    o.property.fullLen.toNat ≤ dest.length →
    ∃ written, o.property.encode order dest = .ok (written, o.property.fullLen.toNat)
  size : o.property.fullLen.toNat =
    (putUvarint o.property.len.toNat).length + o.property.len.toNat

/-- A step on which the two ways of counting agree. A property is set for the first time, or in
place of a value that takes no bytes, to a value that is written as it is counted, and the length
does not overflow; a block that is decoded has no integer longer than necessary and no subscription
identifier twice. -/
def Object.Counts (t : PacketType) (o : Object) : Op → Prop
  | .set id val => PropertyID.isValidPacketType id t = true →
      ((o.property.get id).map (propertyCalcLen id)).getD 0 = 0 ∧
        Countable (propertyTypeMap id) val ∧
        o.property.len.toNat + propertyCalcLen id val + 5 < 2 ^ 32
  | .decode src => src.length < 2 ^ 32 ∧ (∀ item ∈ items src, item.Minimal) ∧
      (items src).countP subscription ≤ 1

/-- What holds of an object along a run of such steps. -/
structure Object.Kept (o : Object) : Prop where
  countable : ∀ id val, o.property.get id = some val → Countable (propertyTypeMap id) val
  exact : o.property.len.toNat = weight o.property.properties.entries
  bounded : o.property.len.toNat + 5 < 2 ^ 32
  held : ∀ id, o.accepted.count id ≤ o.property.written id

namespace Object

variable {t : PacketType} {o : Object}

theorem kept_blank : blank.Kept where
  countable := by simp [blank, get, Property.empty]
  exact := rfl
  bounded := by simp [blank, Property.empty]
  held := by simp [blank]

theorem Kept.counted (kept : o.Kept) : o.property.Counted where
  countable entry member := kept.countable entry.1 entry.2 (get_of_mem member)
  exact := kept.exact
  bounded := kept.bounded

theorem Kept.bookkept (kept : o.Kept) : o.Bookkept := by
  have counted := kept.counted
  refine ⟨?_, ?_, ?_⟩
  · intro order dest enough
    have length := counted.length_block order
    have emits := @Counted.emits_entries o.property order (fun _ => True) (fun _ _ _ => trivial)
      counted dest trivial (by omega)
    rw [length] at emits
    refine ⟨_, emits, ?_⟩
    rw [List.subperm_ext_iff]
    intro id _
    rw [count_written]
    exact kept.held id
  · intro order dest enough
    by_cases single : o.property.fullLen = 1
    · refine ⟨dest, ?_⟩
      have one : o.property.fullLen.toNat = 1 := by rw [single]; rfl
      rw [one] at enough ⊢
      simp only [Property.encode, one, if_neg (not_lt.mpr enough), if_pos single]
    · have length := counted.length_bytes order
      have emits := @Counted.emits_block o.property order (fun _ => True) (fun _ _ _ => trivial)
        counted single dest trivial (by omega)
      rw [length] at emits
      exact ⟨_, emits⟩
  · rw [counted.toNat_fullLen, uvarintCalc_eq_length, Nat.add_comm]

theorem set_of_not_allowed {p : Property} {id : PropertyID} {val : PropertyValue}
    (refused : ¬PropertyID.isValidPacketType id t = true) : ∃ e, p.set t id val = .error e := by
  unfold PropertyID.isValidPacketType at refused
  unfold Property.set
  cases found : propertyAllowedMessageTypes.lookup id with
  | none => exact ⟨_, rfl⟩
  | some types =>
      simp only [found, Bool.not_eq_true, Option.isSome_eq_false_iff] at refused
      exact ⟨_, if_pos refused⟩

/-- A value that takes the place of nothing is added to the count and to the block. -/
theorem Kept.set (kept : o.Kept) (id : PropertyID) (val : PropertyValue)
    (counts : o.Counts t (.set id val)) : (o.step t (.set id val)).Kept := by
  by_cases allowed : PropertyID.isValidPacketType id t = true
  · rcases counts allowed with ⟨nothing, countable, short⟩
    have stepped : o.step t (.set id val) = ⟨⟨o.property.properties.insert id val,
        o.property.len + UInt32.ofNat (propertyCalcLen id val)⟩, o.accepted⟩ := by
      simp only [step, set_of_allowed allowed]
    have length : (o.property.len + UInt32.ofNat (propertyCalcLen id val)).toNat =
        o.property.len.toNat + propertyCalcLen id val := by
      rw [UInt32.toNat_add, UInt32.toNat_ofNat']
      omega
    rw [stepped]
    refine ⟨?_, ?_, ?_, ?_⟩
    · intro other found look
      by_cases same : other = id
      · subst same
        rw [get, AList.lookup_insert, Option.some.injEq] at look
        exact look ▸ countable
      · rw [get, AList.lookup_insert_ne same] at look
        exact kept.countable other found look
    · have replaced := weight_insert o.property.properties id val
      change _ + ((o.property.get id).map (propertyCalcLen id)).getD 0 = _ at replaced
      have before := kept.exact
      simp only [length]
      omega
    · simp only [length]
      omega
    · intro other
      rw [written_insert]
      have before := kept.held other
      simp only
      split
      · rename_i same
        subst same
        -- what the identifier held took no bytes, so it was not among those accepted
        have none : o.property.written other = 0 := by
          unfold written
          cases look : o.property.get other with
          | none => rfl
          | some old =>
              rw [look] at nothing
              exact occurrences_eq_zero (kept.countable other old look) nothing
        omega
      · exact before
  · rcases @set_of_not_allowed t o.property id val allowed with ⟨e, failed⟩
    simpa only [step, failed] using kept

/-- What was read without waste takes as much when it is written. -/
theorem Kept.decode (kept : o.Kept) (src : Bytes) (counts : o.Counts t (.decode src)) :
    (o.step t (.decode src)).Kept := by
  rcases counts with ⟨short, minimal, single⟩
  cases run : Property.empty.decode t src with
  | error fault => simpa only [step, run] using kept
  | ok result =>
      rcases result with ⟨p, n⟩
      have ends : n = blockLength src := block_consumes short (by rw [run_block]; exact run)
      simp only [step, run]
      rcases header : uvarint src with ⟨pLen, lCount⟩
      rw [Property.decode, header] at run
      simp only [malformed] at run
      split at run
      · simp at run
      · rename_i positive
        have bound := uvarint_bound header (not_le.mp positive)
        have start : Reading t lCount.toNat Property.empty lCount.toNat :=
          ⟨by simp [get, Property.empty], by simp [get, Property.empty], rfl, rfl⟩
        have scanned : items src = scan (src.length + 1) pLen (src.drop lCount.toNat) := by
          simp only [items, header]
        rw [scanned] at minimal single
        rcases reading_decodeLoop start minimal
          (by simpa [subscriptions, get, Property.empty] using single) run with ⟨reading, written⟩
        have covered := reading.covered
        rw [ends, blockLength, header] at covered
        simp only at covered
        have exact : p.len.toNat = weight p.properties.entries := by
          rw [reading.counted, UInt32.toNat_ofNat', Nat.mod_eq_of_lt (by omega)]
        refine ⟨?_, exact, ?_, ?_⟩
        · intro id val look
          exact (reading.canonical id val look).wellShaped.countable
        · simp only
          omega
        · intro id
          rw [written id, scanned]
          exact Nat.le_add_left _ _

theorem Kept.step (kept : o.Kept) (op : Op) (counts : o.Counts t op) : (o.step t op).Kept := by
  cases op with
  | set id val => exact kept.set id val counts
  | decode src => exact kept.decode src counts

/-- At all times of a run on whose steps the two ways of counting agree, the length of the object
is right. -/
theorem bookkept_of_run {t : PacketType} {ops : List Op}
    (counts : Along (Object.step t) (Object.Counts t) blank ops) (n : ℕ) :
    ((ops.take n).foldl (Object.step t) blank).Bookkept := by
  have kept := counts.always Kept (fun o op kept counts => kept.step op counts) kept_blank n
  exact kept.bookkept

/-- A packet with a property is decoded, and another one is set on it. -/
def sampleOps : List Op :=
  [.decode [3, 0x23, 0, 5], .set PropertyPayloadFormat (.byte 1)]

theorem sampleOps_bookkept : (sampleOps.foldl (Object.step .PUBLISH) blank).Bookkept := by
  refine @bookkept_of_run .PUBLISH sampleOps ⟨?_, ?_, trivial⟩ 2
  · exact ⟨by decide, by decide, by decide⟩
  · intro _
    exact ⟨by decide, trivial, by decide⟩

theorem Bookkept.reports {o : Object} (law : o.Bookkept) (order : MapOrder PropertyEntry)
    {dest : Bytes} (enough : o.property.len.toNat ≤ dest.length) :
    (Writer.each (fun entry : PropertyEntry => propertyEncodeType entry.1 entry.2)
      (order.range o.property.properties.entries) dest).map Prod.snd =
      .ok o.property.len.toNat := by
  rcases law.entries order dest enough with ⟨written, run, -⟩
  rw [run]
  rfl

/-- A property that is set twice is counted twice; of two subscription identifiers that were
decoded both are counted and one is written; and an integer is counted as it was read and written
without the bytes that it does not need. -/
theorem not_bookkept :
    ¬Bookkept ([Op.set PropertyReceiveMaximum (.short 9),
      .set PropertyReceiveMaximum (.short 10)].foldl (Object.step .CONNECT) blank) ∧
    ¬Bookkept ([Op.decode [4, 0x0B, 1, 0x0B, 2]].foldl (Object.step .PUBLISH) blank) ∧
    ¬Bookkept ([Op.decode [3, 0x81, 0, 1]].foldl (Object.step .PUBLISH) blank) := by
  refine ⟨?_, ?_, ?_⟩
  · intro law
    have reported := law.reports (.insertion _) (show _ ≤ (List.replicate 6 0).length by decide)
    revert reported
    decide
  · intro law
    have reported := law.reports (.insertion _) (show _ ≤ (List.replicate 4 0).length by decide)
    revert reported
    decide
  · intro law
    have reported := law.reports (.insertion _) (show _ ≤ (List.replicate 3 0).length by decide)
    revert reported
    decide

end Object

end Property

end VolantMQ.Packet
