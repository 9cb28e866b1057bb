import VolantMQ.Packet.Arrival
import VolantMQ.Packet.Fields

/-!
# Property blocks that survive the wire

A property block keeps its map through encoding and decoding, in every iteration order, when each
of its values is one that the decoder itself would have stored and its length field is right. Such
blocks come from two sides: from `Set` with a value of the right type for each property, and from
the decoder, if the block it read had no integer longer than necessary and no subscription
identifier twice.
-/

namespace VolantMQ.Packet

open Lib

namespace PropertyID

/-- A property that a packet type allows has a row in the table, with an entry for the type. -/
theorem row_of_isValidPacketType {id : PropertyID} {t : PacketType}
    (allowed : isValidPacketType id t = true) :
    ∃ types dup, (id, types) ∈ propertyAllowedMessageTypes ∧ (t, dup) ∈ types ∧
      dupAllowed id t = dup := by
  unfold isValidPacketType at allowed
  unfold dupAllowed
  cases found : propertyAllowedMessageTypes.lookup id with
  | none => simp [found] at allowed
  | some types =>
      simp only [found] at allowed
      rcases Option.isSome_iff_exists.mp allowed with ⟨dup, entry⟩
      rcases List.lookup_eq_some_iff.mp found with ⟨front, back, whole, _⟩
      rcases List.lookup_eq_some_iff.mp entry with ⟨first, last, row, _⟩
      exact ⟨types, dup, by simp [whole], by simp [row], by simp [entry]⟩

theorem small_of_isValidPacketType {id : PropertyID} {t : PacketType}
    (allowed : isValidPacketType id t = true) : id.toNat < 2 ^ 29 := by
  have table : propertyAllowedMessageTypes.all (fun row => decide (row.1.toNat < 2 ^ 29)) = true := by
    decide
  rcases row_of_isValidPacketType allowed with ⟨types, dup, row, -, -⟩
  exact of_decide_eq_true (List.all_eq_true.mp table (id, types) row)

/-- User properties may be repeated wherever they may appear. -/
theorem dupAllowed_of_pair {id : PropertyID} {t : PacketType}
    (allowed : isValidPacketType id t = true) (pair : propertyTypeMap id = .stringPair) :
    dupAllowed id t = true := by
  have table : propertyAllowedMessageTypes.all (fun row =>
      !(propertyTypeMap row.1 == .stringPair) || row.2.all Prod.snd) = true := by decide
  rcases row_of_isValidPacketType allowed with ⟨types, dup, row, entry, same⟩
  have repeated := List.all_eq_true.mp table (id, types) row
  simp only [pair, beq_self_eq_true, Bool.not_true, Bool.false_or] at repeated
  rw [same]
  exact List.all_eq_true.mp repeated (t, dup) entry

/-- Only the subscription identifiers of a PUBLISH and user properties may be repeated. -/
theorem type_of_dupAllowed {id : PropertyID} {t : PacketType} (repeated : dupAllowed id t = true) :
    id = PropertySubscriptionIdentifier ∨ propertyTypeMap id = .stringPair := by
  have table : propertyAllowedMessageTypes.all (fun row =>
      row.1 == PropertySubscriptionIdentifier || propertyTypeMap row.1 == .stringPair ||
        row.2.all fun entry => !entry.2) = true := by decide
  have allowed : isValidPacketType id t = true := by
    unfold dupAllowed at repeated
    unfold isValidPacketType
    cases found : propertyAllowedMessageTypes.lookup id with
    | none => simp [found] at repeated
    | some types =>
        cases entry : types.lookup t with
        | none => simp [found, entry] at repeated
        | some dup => simp [entry]
  rcases row_of_isValidPacketType allowed with ⟨types, dup, row, entry, same⟩
  rw [same] at repeated
  have here := List.all_eq_true.mp table (id, types) row
  simp only [Bool.or_eq_true, beq_iff_eq, List.all_eq_true, Bool.not_eq_true'] at here
  rcases here with (subscription | pair) | never
  · exact .inl subscription
  · exact .inr pair
  · have no := never (t, dup) entry
    simp [repeated] at no

end PropertyID

/-- A block that holds only values as the decoder stores them, in a packet that allows them, and
whose length field is right. -/
structure Property.Exact (t : PacketType) (p : Property) : Prop where
  canonical : ∀ id val, p.get id = some val → Canonical (propertyTypeMap id) val
  allowed : ∀ id val, p.get id = some val → PropertyID.isValidPacketType id t = true
  counted : p.len.toNat = weight p.properties.entries
  bounded : p.len.toNat < 2 ^ 29

/-- Two blocks with the same map. -/
def Property.Same (p q : Property) : Prop := ∀ id, p.get id = q.get id

namespace Property

theorem get_of_mem {p : Property} {entry : PropertyEntry} (member : entry ∈ p.properties.entries) :
    p.get entry.1 = some entry.2 := AList.mem_lookup_iff.mpr member

theorem exact_empty (t : PacketType) : Exact t empty where
  canonical := by simp [get, empty]
  allowed := by simp [get, empty]
  counted := rfl
  bounded := by simp [empty]

theorem Exact.encodable {t : PacketType} {p : Property} (exact : p.Exact t) : p.Encodable where
  shaped entry member := (exact.canonical entry.1 entry.2 (get_of_mem member)).wellShaped
  exact := exact.counted
  bounded := by
    have bounded := exact.bounded
    omega

/-- What the loop does with an entry whose value is not repeated. -/
theorem decodeLoop_single {t : PacketType} {p : Property} {id : PropertyID} {val : PropertyValue}
    {payload : Bytes} (allowed : PropertyID.isValidPacketType id t = true)
    (absent : id ∉ p.properties) (written : wireItems [⟨id, val⟩] = [(id, payload)])
    (decoded : ∀ rest, propertyDecodeType id p.properties (payload ++ rest) =
      .ok (p.properties.insert id val, payload.length)) {left : ℕ}
    (short : (blockBytes (wireItems [⟨id, val⟩])).length + left < 2 ^ 32) (rest : Bytes)
    (rounds offset : ℕ) :
    decodeLoop t (rounds + (wireItems [⟨id, val⟩]).length) p
        (UInt32.ofNat ((blockBytes (wireItems [⟨id, val⟩])).length + left))
        (blockBytes (wireItems [⟨id, val⟩]) ++ rest) offset =
      decodeLoop t rounds ⟨p.properties.insert id val,
          p.len + UInt32.ofNat (blockBytes (wireItems [⟨id, val⟩])).length⟩
        (UInt32.ofNat left) rest (offset + (blockBytes (wireItems [⟨id, val⟩])).length) := by
  simp only [written, blockBytes_cons, blockBytes_nil, List.append_nil] at short ⊢
  exact decodeLoop_item (PropertyID.small_of_isValidPacketType allowed) allowed
    (fun present => absurd present absent) (decoded rest) short rounds offset

/-- The items of a user property. -/
def pairItem (id : PropertyID) (pair : StringPair) : PropertyID × Bytes :=
  (id, lpBytes pair.K ++ lpBytes pair.V)

/-- The loop collects the pairs of a user property one by one. -/
theorem decodeLoop_pairs {t : PacketType} {id : PropertyID}
    (allowed : PropertyID.isValidPacketType id t = true)
    (isPair : propertyTypeMap id = .stringPair) {values : List StringPair}
    (valid : ∀ pair ∈ values, utf8Valid pair.K = true ∧ utf8Valid pair.V = true)
    (fits : ∀ pair ∈ values, pair.K.length ≤ MaxLPString ∧ pair.V.length ≤ MaxLPString)
    {props : PropertyMap} {old : List StringPair} {len : UInt32} {left : ℕ}
    (short : (blockBytes (values.map (pairItem id))).length + left < 2 ^ 32) (rest : Bytes)
    (rounds offset : ℕ) :
    decodeLoop t (rounds + values.length) ⟨props.insert id (.pairs old), len⟩
        (UInt32.ofNat ((blockBytes (values.map (pairItem id))).length + left))
        (blockBytes (values.map (pairItem id)) ++ rest) offset =
      decodeLoop t rounds ⟨props.insert id (.pairs (old ++ values)),
          len + UInt32.ofNat (blockBytes (values.map (pairItem id))).length⟩
        (UInt32.ofNat left) rest (offset + (blockBytes (values.map (pairItem id))).length) := by
  induction values generalizing old len offset with
  | nil => simp
  | cons pair values ih =>
      have decoded : propertyDecodeType id (props.insert id (.pairs old))
          (lpBytes pair.K ++ lpBytes pair.V ++ (blockBytes (values.map (pairItem id)) ++ rest)) =
          .ok (props.insert id (.pairs (old ++ [pair])),
            (lpBytes pair.K ++ lpBytes pair.V).length) := by
        rw [propertyDecodeType, isPair]
        simp only
        rw [decodeStringPair_lpBytes (.inr (AList.lookup_insert _)) (valid pair (by simp))
          (fits pair (by simp)), AList.insert_insert]
      have dup := PropertyID.dupAllowed_of_pair allowed isPair
      simp only [List.map_cons, blockBytes_cons, List.length_append, List.length_cons,
        List.append_assoc, pairItem] at short ⊢
      rw [Nat.add_assoc] at short ⊢
      rw [← Nat.add_assoc rounds, decodeLoop_item (PropertyID.small_of_isValidPacketType allowed)
        allowed (fun _ => dup) decoded short]
      rw [ih (fun other member => valid other (by simp [member]))
        (fun other member => fits other (by simp [member])) (by omega), UInt32.ofNat_add,
        UInt32.add_assoc, Nat.add_assoc offset, List.append_assoc]
      rfl

/-- A value that is not a list of pairs is written as one item, which is decoded to this value. -/
theorem decoded_of_canonical {id : PropertyID} {val : PropertyValue}
    (canonical : Canonical (propertyTypeMap id) val) (single : propertyTypeMap id ≠ .stringPair)
    (props : PropertyMap) :
    ∃ payload, itemPayloads (propertyTypeMap id) val = [payload] ∧
      ∀ rest, propertyDecodeType id props (payload ++ rest) =
        .ok (props.insert id val, payload.length) := by
  unfold propertyDecodeType
  generalize propertyTypeMap id = type at canonical single
  cases canonical with
  | byte value => exact ⟨[value], rfl, fun rest => rfl⟩
  | short value =>
      refine ⟨putUint16 value, rfl, fun rest => ?_⟩
      have read := uint16_putUint16 value
      simp only [putUint16, List.cons_append, List.nil_append, decodeShort] at read ⊢
      rw [read]
      rfl
  | int value =>
      refine ⟨putUint32 value, rfl, fun rest => ?_⟩
      have read := uint32_putUint32 value
      simp only [putUint32, List.cons_append, List.nil_append, decodeInt] at read ⊢
      rw [read]
      rfl
  | @varInt value fits =>
      exact ⟨putUvarint value.toNat, rfl, fun rest => decodeVarInt_putUvarint props id fits rest⟩
  | @string value valid fits =>
      refine ⟨lpBytes value, rfl, fun rest => ?_⟩
      simp only [decodeString, readLPBytes_lpBytes fits, valid, if_true, length_lpBytes]
  | pairs nonempty valid fits => exact absurd rfl single
  | @binary value fits =>
      refine ⟨lpBytes value, rfl, fun rest => ?_⟩
      simp only [decodeBinary, readLPBytes_lpBytes fits, length_lpBytes]

/-- The loop stores the pairs of a user property that is new to it. -/
theorem decodeLoop_userProperty {t : PacketType} {p : Property} {id : PropertyID}
    {values : List StringPair} (allowed : PropertyID.isValidPacketType id t = true)
    (isPair : propertyTypeMap id = .stringPair) (nonempty : values ≠ [])
    (valid : ∀ pair ∈ values, utf8Valid pair.K = true ∧ utf8Valid pair.V = true)
    (fits : ∀ pair ∈ values, pair.K.length ≤ MaxLPString ∧ pair.V.length ≤ MaxLPString)
    (absent : id ∉ p.properties) {left : ℕ}
    (short : (blockBytes (values.map (pairItem id))).length + left < 2 ^ 32) (rest : Bytes)
    (rounds offset : ℕ) :
    decodeLoop t (rounds + values.length) p
        (UInt32.ofNat ((blockBytes (values.map (pairItem id))).length + left))
        (blockBytes (values.map (pairItem id)) ++ rest) offset =
      decodeLoop t rounds ⟨p.properties.insert id (.pairs values),
          p.len + UInt32.ofNat (blockBytes (values.map (pairItem id))).length⟩
        (UInt32.ofNat left) rest (offset + (blockBytes (values.map (pairItem id))).length) := by
  cases values with
  | nil => exact absurd rfl nonempty
  | cons pair values =>
      have decoded : ∀ rest, propertyDecodeType id p.properties
          (lpBytes pair.K ++ lpBytes pair.V ++ rest) =
          .ok (p.properties.insert id (.pairs [pair]),
            (lpBytes pair.K ++ lpBytes pair.V).length) := by
        intro rest
        rw [propertyDecodeType, isPair]
        exact decodeStringPair_lpBytes (.inl ⟨AList.lookup_eq_none.mpr absent, rfl⟩)
          (valid pair (by simp)) (fits pair (by simp)) rest
      rw [List.map_cons, blockBytes_cons, List.length_append, Nat.add_assoc] at short
      rw [List.map_cons, blockBytes_cons, List.length_append, List.length_cons,
        ← Nat.add_assoc rounds, List.append_assoc, Nat.add_assoc (itemBytes _).length, pairItem,
        decodeLoop_item (PropertyID.small_of_isValidPacketType allowed) allowed
          (fun present => absurd present absent) (decoded _) short,
        decodeLoop_pairs allowed isPair (fun other member => valid other (by simp [member]))
          (fun other member => fits other (by simp [member])) (by omega),
        UInt32.ofNat_add, UInt32.add_assoc, Nat.add_assoc offset]
      rfl

/-- The loop stores an entry that is new to it. -/
theorem decodeLoop_entry {t : PacketType} {p : Property} {id : PropertyID} {val : PropertyValue}
    (allowed : PropertyID.isValidPacketType id t = true)
    (canonical : Canonical (propertyTypeMap id) val) (absent : id ∉ p.properties) {left : ℕ}
    (short : (blockBytes (wireItems [⟨id, val⟩])).length + left < 2 ^ 32) (rest : Bytes)
    (rounds offset : ℕ) :
    decodeLoop t (rounds + (wireItems [⟨id, val⟩]).length) p
        (UInt32.ofNat ((blockBytes (wireItems [⟨id, val⟩])).length + left))
        (blockBytes (wireItems [⟨id, val⟩]) ++ rest) offset =
      decodeLoop t rounds ⟨p.properties.insert id val,
          p.len + UInt32.ofNat (blockBytes (wireItems [⟨id, val⟩])).length⟩
        (UInt32.ofNat left) rest (offset + (blockBytes (wireItems [⟨id, val⟩])).length) := by
  have written : wireItems [⟨id, val⟩] =
      (itemPayloads (propertyTypeMap id) val).map fun payload => (id, payload) := by simp [wireItems]
  by_cases isPair : propertyTypeMap id = .stringPair
  · rw [isPair] at canonical written
    cases canonical with
    | @pairs values nonempty valid fits =>
        have items : wireItems [⟨id, .pairs values⟩] = values.map (pairItem id) := by
          rw [written]
          simp [itemPayloads, PropertyValue.pairItems, pairItem, Function.comp_def]
        rw [items] at short ⊢
        rw [List.length_map]
        exact decodeLoop_userProperty allowed isPair nonempty valid fits absent short rest rounds
          offset
  · rcases decoded_of_canonical canonical isPair p.properties with ⟨payload, alone, decoded⟩
    rw [alone] at written
    exact decodeLoop_single allowed absent written decoded short rest rounds offset

/-- The map after storing entries one after the other. -/
def fill (props : PropertyMap) (entries : List PropertyEntry) : PropertyMap :=
  entries.foldl (fun filled entry => filled.insert entry.1 entry.2) props

theorem fill_cons (props : PropertyMap) (entry : PropertyEntry) (entries : List PropertyEntry) :
    fill props (entry :: entries) = fill (props.insert entry.1 entry.2) entries := rfl

theorem lookup_fill {entries : List PropertyEntry} (keys : entries.NodupKeys) (props : PropertyMap)
    (id : PropertyID) :
    (fill props entries).lookup id = (entries.dlookup id).or (props.lookup id) := by
  induction entries generalizing props with
  | nil => rfl
  | cons entry entries ih =>
      rcases entry with ⟨key, val⟩
      rw [List.nodupKeys_cons] at keys
      rw [fill_cons, ih keys.2]
      by_cases same : id = key
      · subst same
        have later : entries.dlookup id = none := List.dlookup_eq_none.mpr keys.1
        rw [later, AList.lookup_insert, List.dlookup_cons_eq]
        rfl
      · rw [AList.lookup_insert_ne same, List.dlookup_cons_ne _ _ same]

/-- The loop stores the entries of a block one after the other. -/
theorem decodeLoop_entries {t : PacketType} {entries : List PropertyEntry}
    (keys : entries.NodupKeys)
    (canonical : ∀ entry ∈ entries, Canonical (propertyTypeMap entry.1) entry.2)
    (allowed : ∀ entry ∈ entries, PropertyID.isValidPacketType entry.1 t = true) {p : Property}
    (absent : ∀ entry ∈ entries, entry.1 ∉ p.properties) {left : ℕ}
    (short : (blockBytes (wireItems entries)).length + left < 2 ^ 32) (rest : Bytes)
    (rounds offset : ℕ) :
    decodeLoop t (rounds + (wireItems entries).length) p
        (UInt32.ofNat ((blockBytes (wireItems entries)).length + left))
        (blockBytes (wireItems entries) ++ rest) offset =
      decodeLoop t rounds ⟨fill p.properties entries,
          p.len + UInt32.ofNat (blockBytes (wireItems entries)).length⟩
        (UInt32.ofNat left) rest (offset + (blockBytes (wireItems entries)).length) := by
  induction entries generalizing p offset with
  | nil => simp [wireItems, fill]
  | cons entry entries ih =>
      rcases entry with ⟨id, val⟩
      rw [List.nodupKeys_cons] at keys
      have absentTail : ∀ entry ∈ entries, entry.1 ∉ p.properties.insert id val := by
        intro entry member present
        rcases (AList.mem_insert _).mp present with same | old
        · have key : entry.1 ∈ entries.keys := List.mem_keys_of_mem member
          exact keys.1 (same ▸ key)
        · exact absent entry (by simp [member]) old
      have allowedHere : PropertyID.isValidPacketType id t = true := allowed ⟨id, val⟩ (by simp)
      have canonicalHere : Canonical (propertyTypeMap id) val := canonical ⟨id, val⟩ (by simp)
      have absentHere : id ∉ p.properties := absent ⟨id, val⟩ (by simp)
      rw [wireItems_cons, blockBytes_append, List.length_append] at short ⊢
      rw [Nat.add_assoc] at short
      rw [List.length_append, Nat.add_comm (wireItems [_]).length, ← Nat.add_assoc rounds,
        Nat.add_assoc (blockBytes (wireItems [_])).length, List.append_assoc,
        decodeLoop_entry allowedHere canonicalHere absentHere short,
        ih keys.2 (fun other member => canonical other (by simp [member]))
          (fun other member => allowed other (by simp [member])) absentTail (by omega),
        fill_cons, UInt32.ofNat_add, UInt32.add_assoc, Nat.add_assoc offset]

theorem length_le_blockBytes (items : List (PropertyID × Bytes)) :
    items.length ≤ (blockBytes items).length := by
  induction items with
  | nil => simp
  | cons item items ih =>
      have positive := uvarintCalc_pos item.1
      rw [blockBytes_cons, List.length_append, length_itemBytes, List.length_cons]
      omega

theorem decodeLoop_done {t : PacketType} {rounds : ℕ} (enough : 0 < rounds) (p : Property)
    (slice : Bytes) (offset : ℕ) :
    decodeLoop t rounds p (UInt32.ofNat 0) slice offset = .ok (p, offset) := by
  cases rounds with
  | zero => omega
  | succ rounds => rfl

/-- An exact block is read back as it is, in every iteration order. -/
theorem decode_exact {t : PacketType} {p : Property} (exact : p.Exact t)
    (order : MapOrder PropertyEntry) :
    ∃ done, Property.empty.decode t (p.bytes order) = .ok (done, (p.bytes order).length) ∧
      done.len = p.len ∧ p.Same done := by
  have same := order.perm p.properties.entries
  have keys : (order.range p.properties.entries).NodupKeys :=
    (List.perm_nodupKeys same).mpr p.properties.nodupKeys
  have held : ∀ entry ∈ order.range p.properties.entries, p.get entry.1 = some entry.2 :=
    fun entry member => get_of_mem (same.mem_iff.mp member)
  have length := length_block order exact.encodable
  have bounded := exact.bounded
  have few := length_le_blockBytes (wireItems (order.range p.properties.entries))
  have loop := @decodeLoop_entries t _ keys
    (fun entry member => exact.canonical _ _ (held entry member))
    (fun entry member => exact.allowed _ _ (held entry member)) empty (by simp [empty]) 0 (by omega)
    [] ((p.bytes order).length + 1 - (wireItems (order.range p.properties.entries)).length)
    (putUvarint p.len.toNat).length
  have total : (p.bytes order).length = (putUvarint p.len.toNat).length + p.len.toNat := by
    rw [bytes, List.length_append, length]
  have prefixPos : 0 < (putUvarint p.len.toNat).length := by
    rw [← uvarintCalc_eq_length]
    exact uvarintCalc_pos p.len
  have header : uvarint (p.bytes order) = (p.len, ((putUvarint p.len.toNat).length : Int)) := by
    rw [bytes, uvarint_putUvarint bounded, UInt32.ofNat_toNat]
  have body : (p.bytes order).drop (putUvarint p.len.toNat).length =
      blockBytes (wireItems (order.range p.properties.entries)) := by
    rw [bytes, List.drop_left]
  have notMalformed : ¬((putUvarint p.len.toNat).length : Int) ≤ 0 := by omega
  refine ⟨⟨fill ∅ (order.range p.properties.entries), p.len⟩, ?_, rfl, ?_⟩
  · simp only [Nat.add_zero] at loop
    rw [Nat.sub_add_cancel (by omega), List.append_nil, length, UInt32.ofNat_toNat,
      decodeLoop_done (by omega)] at loop
    simp only [decode, header, if_neg notMalformed, Int.toNat_natCast, body, loop]
    simp [empty, total]
  · intro id
    have filled := lookup_fill keys ∅ id
    rw [List.perm_dlookup id keys same, AList.lookup_empty, Option.or_none] at filled
    exact filled.symm

/-- An exact block is read back as it is, whatever follows it. -/
theorem reads_exact {t : PacketType} {p : Property} (exact : p.Exact t)
    (order : MapOrder PropertyEntry) :
    ∃ done, Reads (block true t) (p.bytes order) done ∧ done.len = p.len ∧ p.Same done := by
  rcases decode_exact exact order with ⟨done, run, same⟩
  rw [← run_block] at run
  refine ⟨done, fun rest => ?_, same⟩
  rw [(block true t).stable (honest_block true t _ _ _ run) rest, run]

end Property

/-- One property of a block: the bytes from its identifier on, and those from its value on. -/
structure Item where
  id : PropertyID
  source : Bytes
  value : Bytes
  deriving DecidableEq

/-- Its variable-length integers take no more bytes than necessary. -/
def Item.Minimal (item : Item) : Prop :=
  Packet.Minimal item.source ∧ (propertyTypeMap item.id = .varInt → Packet.Minimal item.value)

instance (item : Item) : Decidable item.Minimal := inferInstanceAs (Decidable (_ ∧ _))

namespace Property

/-- The properties in the bytes that follow the length field of a block, one after the other. -/
def scan : ℕ → UInt32 → Bytes → List Item
  | 0, _, _ => []
  | rounds + 1, pLen, src =>
      if pLen = 0 then []
      else
        let id := (uvarint src).1
        let value := src.drop (uvarint src).2.toNat
        match propertyDecodeType id ∅ value with
        | .error _ => []
        | .ok (_, k) =>
            let count := (uvarint src).2.toNat + k
            ⟨id, src, value⟩ :: scan rounds (pLen - UInt32.ofNat count) (src.drop count)

/-- The properties of the block at the start of the bytes. -/
def items (src : Bytes) : List Item :=
  scan (src.length + 1) (uvarint src).1 (src.drop (uvarint src).2.toNat)

/-- Whether a property is a subscription identifier. -/
def subscription (item : Item) : Bool := item.id == PropertySubscriptionIdentifier

/-- A block without a variable-length integer that is longer than necessary, and with at most one
subscription identifier. -/
structure Tidy (src : Bytes) : Prop where
  length : Minimal src
  minimal : ∀ item ∈ items src, item.Minimal
  single : (items src).countP subscription ≤ 1

/-- What holds of a block while it is read: what has been read since the start of its properties
is what they take when they are written. -/
structure Reading (t : PacketType) (start : ℕ) (p : Property) (consumed : ℕ) : Prop where
  canonical : ∀ id val, p.get id = some val → Canonical (propertyTypeMap id) val
  allowed : ∀ id val, p.get id = some val → PropertyID.isValidPacketType id t = true
  counted : p.len = UInt32.ofNat (weight p.properties.entries)
  covered : consumed = start + weight p.properties.entries

/-- How many bytes a value decoder consumes does not depend on the map. -/
theorem propertyDecodeType_alone {id : PropertyID} {props next : PropertyMap} {src : Bytes} {k : ℕ}
    (run : propertyDecodeType id props src = .ok (next, k)) :
    ∃ alone, propertyDecodeType id ∅ src = .ok (alone, k) := by
  rcases exists_decodedAs run with ⟨val, -, decoded⟩
  have alone : ∀ type, DecodedAs props id type src val k →
      ∃ single, DecodedAs ∅ id type src single k := by
    intro type decoded
    cases decoded with
    | byte value rest => exact ⟨_, .byte value rest⟩
    | short high low rest => exact ⟨_, .short high low rest⟩
    | int b3 b2 b1 b0 rest => exact ⟨_, .int b3 b2 b1 b0 rest⟩
    | varInt read positive => exact ⟨_, .varInt read positive⟩
    | string read valid => exact ⟨_, .string read valid⟩
    | binary read => exact ⟨_, .binary read⟩
    | stringPair readKey keyValid read valid before =>
        exact ⟨_, .stringPair readKey keyValid read valid (.inl ⟨AList.lookup_empty id, rfl⟩)⟩
  rcases alone _ decoded with ⟨single, decoded⟩
  exact ⟨_, decoded.run⟩

theorem rewritten_of_minimal {id : PropertyID} {props next : PropertyMap} {src : Bytes} {k : ℕ}
    (minimal : propertyTypeMap id = .varInt → Minimal src)
    (run : propertyDecodeType id props src = .ok (next, k)) :
    rewritten (propertyTypeMap id) src k = k := by
  rcases exists_decodedAs run with ⟨val, -, decoded⟩
  generalize propertyTypeMap id = type at minimal decoded
  cases decoded with
  | @varInt _ value cnt read positive =>
      have shortest : (uvarint src).2 = uvarintCalc (uvarint src).1 := minimal rfl
      rw [read] at shortest
      dsimp only at shortest
      simp only [rewritten, if_true, read]
      omega
  | _ => rfl

/-- How often an identifier is written for a value. -/
def occurrences (id : PropertyID) (val : PropertyValue) : ℕ :=
  (itemPayloads (propertyTypeMap id) val).length

/-- How often an identifier is written for what the map holds under it. -/
def written (p : Property) (id : PropertyID) : ℕ := ((p.get id).map (occurrences id)).getD 0

theorem written_insert (p : Property) (id other : PropertyID) (val : PropertyValue) (len : UInt32) :
    written ⟨p.properties.insert id val, len⟩ other =
      if other = id then occurrences id val else p.written other := by
  unfold written get
  split
  · rename_i same
    rw [same, AList.lookup_insert]
    rfl
  · rename_i different
    rw [AList.lookup_insert_ne different]

/-- A value decoder stores one item, behind those of the pairs that it extends. -/
theorem occurrences_of_decode {id : PropertyID} {props : PropertyMap} {val : PropertyValue}
    {src : Bytes} {k : ℕ}
    (run : propertyDecodeType id props src = .ok (props.insert id val, k)) :
    occurrences id val = (if propertyTypeMap id = .stringPair then
      ((props.lookup id).map (occurrences id)).getD 0 else 0) + 1 := by
  rcases exists_decodedAs run with ⟨other, same, decoded⟩
  have stored : val = other := by
    have found := congrArg (AList.lookup id) same
    rw [AList.lookup_insert, AList.lookup_insert, Option.some.injEq] at found
    exact found
  subst stored
  unfold occurrences
  generalize propertyTypeMap id = type at decoded
  cases decoded with
  | stringPair readKey keyValid read valid before =>
      rcases before with ⟨absent, rfl⟩ | present
      · rw [absent]
        rfl
      · rw [present]
        simp [itemPayloads, PropertyValue.pairItems]
  | _ => rfl

/-- Only user properties and subscription identifiers come again. -/
theorem absent_of_single {t : PacketType} {id : PropertyID} {p : Property}
    (repeated : id ∈ p.properties → PropertyID.dupAllowed id t = true)
    (single : id = PropertySubscriptionIdentifier → p.get id = none)
    (notPair : propertyTypeMap id ≠ .stringPair) : p.get id = none := by
  by_cases present : id ∈ p.properties
  · rcases PropertyID.type_of_dupAllowed (repeated present) with subscription | pair
    · exact single subscription
    · exact absurd pair notPair
  · exact AList.lookup_eq_none.mpr present

/-- A property that may come again and is no subscription identifier extends the value before
it. -/
theorem extended_of_single {t : PacketType} {id : PropertyID} {p : Property}
    (repeated : id ∈ p.properties → PropertyID.dupAllowed id t = true)
    (single : id = PropertySubscriptionIdentifier → p.get id = none) :
    extended (propertyTypeMap id) id p.properties =
      ((p.properties.lookup id).map (propertyCalcLen id)).getD 0 := by
  unfold extended
  split
  · rfl
  · rename_i notPair
    have absent : p.properties.lookup id = none := absent_of_single repeated single notPair
    rw [absent]
    rfl

theorem Reading.step {t : PacketType} {p : Property} {start consumed count : ℕ}
    (reading : Reading t start p consumed) {id : PropertyID} {val : PropertyValue}
    (allowed : PropertyID.isValidPacketType id t = true)
    (canonical : Canonical (propertyTypeMap id) val)
    (counted : propertyCalcLen id val =
      ((p.properties.lookup id).map (propertyCalcLen id)).getD 0 + count) :
    Reading t start ⟨p.properties.insert id val, p.len + UInt32.ofNat count⟩ (consumed + count) := by
  have replaced := weight_insert p.properties id val
  have grown : weight (p.properties.insert id val).entries =
      weight p.properties.entries + count := by omega
  refine ⟨?_, ?_, ?_, ?_⟩
  · intro other found look
    by_cases same : other = id
    · subst other
      rw [get, AList.lookup_insert, Option.some.injEq] at look
      exact look ▸ canonical
    · rw [get, AList.lookup_insert_ne same] at look
      exact reading.canonical other found look
  · intro other found look
    by_cases same : other = id
    · exact same ▸ allowed
    · rw [get, AList.lookup_insert_ne same] at look
      exact reading.allowed other found look
  · simp only [grown, UInt32.ofNat_add, reading.counted]
  · simp only [grown]
    rw [reading.covered, Nat.add_assoc]

/-- The subscription identifiers in a map. -/
def subscriptions (p : Property) : ℕ := if (p.get PropertySubscriptionIdentifier).isSome then 1 else 0

theorem subscriptions_insert (p : Property) (id : PropertyID) (val : PropertyValue) (len : UInt32) :
    subscriptions ⟨p.properties.insert id val, len⟩ =
      if id = PropertySubscriptionIdentifier then 1 else p.subscriptions := by
  by_cases same : id = PropertySubscriptionIdentifier
  · have found : get ⟨p.properties.insert id val, len⟩ PropertySubscriptionIdentifier = some val :=
      same ▸ AList.lookup_insert p.properties
    rw [if_pos same, subscriptions, found]
    rfl
  · have kept : get ⟨p.properties.insert id val, len⟩ PropertySubscriptionIdentifier =
        p.get PropertySubscriptionIdentifier := AList.lookup_insert_ne (Ne.symm same)
    rw [if_neg same, subscriptions, subscriptions, kept]

/-- A round of the loop is a property of the block. -/
theorem scan_of_round {rounds k : ℕ} {pLen : UInt32} {slice : Bytes} {id : PropertyID}
    {prefixLen : Int} {props next : PropertyMap} (more : pLen ≠ 0)
    (header : uvarint slice = (id, prefixLen))
    (value : propertyDecodeType id props (slice.drop prefixLen.toNat) = .ok (next, k)) :
    scan (rounds + 1) pLen slice = ⟨id, slice, slice.drop prefixLen.toNat⟩ ::
      scan rounds (pLen - UInt32.ofNat (prefixLen.toNat + k)) (slice.drop (prefixLen.toNat + k)) := by
  rcases propertyDecodeType_alone value with ⟨alone, found⟩
  simp only [scan, if_neg more, header, found]

/-- The loop reads a tidy block into exact values. -/
theorem reading_decodeLoop {t : PacketType} {rounds : ℕ} {p done : Property} {pLen : UInt32}
    {slice : Bytes} {start offset n : ℕ} (reading : Reading t start p offset)
    (minimal : ∀ item ∈ scan rounds pLen slice, item.Minimal)
    (single : p.subscriptions + (scan rounds pLen slice).countP subscription ≤ 1)
    (run : decodeLoop t rounds p pLen slice offset = .ok (done, n)) :
    Reading t start done n ∧ ∀ other,
      done.written other = p.written other + ((scan rounds pLen slice).map Item.id).count other := by
  induction rounds generalizing p pLen slice offset with
  | zero => simp [decodeLoop, malformed] at run
  | succ rounds ih =>
      rcases decodeLoop_eq_ok run with ⟨zero, rfl, rfl⟩ |
        ⟨id, prefixLen, props, k, more, header, positive, allowed, repeated, value, rest⟩
      · refine ⟨reading, fun other => ?_⟩
        simp [scan, zero]
      · rw [scan_of_round more header value] at minimal single ⊢
        have shortest := minimal _ List.mem_cons_self
        have idLength : prefixLen.toNat = uvarintCalc id := by
          have exact : (uvarint slice).2 = uvarintCalc (uvarint slice).1 := shortest.1
          rw [header] at exact
          simp only at exact
          omega
        have onlyOne : id = PropertySubscriptionIdentifier → p.get id = none := by
          rintro rfl
          rw [List.countP_cons_of_pos (by rfl)] at single
          have none : p.subscriptions = 0 := by omega
          simpa [subscriptions] using none
        rcases propertyDecodeType_stores
            (fun val look => (reading.canonical id val look).wellShaped) value with
          ⟨val, rfl, canonical, counted, -, -⟩
        rw [rewritten_of_minimal shortest.2 value, extended_of_single repeated onlyOne] at counted
        have left : subscriptions ⟨p.properties.insert id val,
            p.len + UInt32.ofNat (prefixLen.toNat + k)⟩ +
            (scan rounds (pLen - UInt32.ofNat (prefixLen.toNat + k))
              (slice.drop (prefixLen.toNat + k))).countP subscription ≤ 1 := by
          rw [subscriptions_insert]
          rw [List.countP_cons] at single
          split
          · rename_i same
            rw [if_pos (by simp [subscription, same])] at single
            omega
          · omega
        have later := ih (reading.step allowed canonical (by omega))
          (fun item member => minimal item (List.mem_cons_of_mem _ member)) left rest
        refine ⟨later.1, fun other => ?_⟩
        rw [later.2, written_insert, List.map_cons, List.count_cons]
        -- one more of this identifier than before
        have grown : occurrences id val = p.written id + 1 := by
          rw [occurrences_of_decode value, written, get]
          split
          · rfl
          · rename_i notPair
            have absent : p.properties.lookup id = none :=
              absent_of_single repeated onlyOne notPair
            rw [absent]
            rfl
        by_cases same : other = id
        · subst same
          simp only [if_true, beq_self_eq_true]
          omega
        · simp [same, Ne.symm same]

/-- A tidy block is exact once it is decoded, and will take the bytes it was read from. -/
theorem exact_of_decode {t : PacketType} {src : Bytes} {p : Property} {n : ℕ} (tidy : Tidy src)
    (short : src.length < 2 ^ 29) (run : (block true t).run src = .ok (p, n)) :
    p.Exact t ∧ p.fullLen.toNat = n := by
  have bound := (block true t).bounded run
  have ends := block_consumes (by omega) run
  rw [run_block] at run
  simp only [decode, malformed] at run
  split at run
  · simp at run
  · have start : Reading t (uvarint src).2.toNat empty (uvarint src).2.toNat :=
      ⟨by simp [get, empty], by simp [get, empty], rfl, rfl⟩
    have reading := (reading_decodeLoop start tidy.minimal
      (by rw [← items]; simpa [subscriptions, get, empty] using tidy.single) run).1
    have covered := reading.covered
    have counted : p.len.toNat = weight p.properties.entries := by
      rw [reading.counted, UInt32.toNat_ofNat', Nat.mod_eq_of_lt (by omega)]
    have exact : p.Exact t := ⟨reading.canonical, reading.allowed, counted, by omega⟩
    have announced : p.len = (uvarint src).1 := by
      rw [← UInt32.toNat_inj, counted]
      unfold blockLength at ends
      omega
    have lengthField : (uvarint src).2 = uvarintCalc (uvarint src).1 := tidy.length
    refine ⟨exact, ?_⟩
    rw [toNat_fullLen exact.encodable, announced, ends, blockLength]
    omega

end Property

end VolantMQ.Packet
