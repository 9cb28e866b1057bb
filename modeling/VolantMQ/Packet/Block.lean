import VolantMQ.Packet.Property

/-!
# What an encoded property block decodes to

A property block is a list of items, each an identifier and a payload: the encoders write the
items of the map one after the other, in any iteration order of the map, and one round of the
decoding loop consumes one item. So a block whose values have the shape of their property type
and whose length field is right is read back to its last byte.
-/

namespace VolantMQ.Packet

open Lib

/-- The values of a property type that the encoder writes as the decoder expects them. -/
inductive WellShaped : PropertyType → PropertyValue → Prop
  | byte (value : UInt8) : WellShaped .byte (.byte value)
  | short (value : UInt16) : WellShaped .short (.short value)
  | int (value : UInt32) : WellShaped .int (.int value)
  | varInt {value : UInt32} (fits : value.toNat < 2 ^ 29) : WellShaped .varInt (.int value)
  | varInts {values : List UInt32} (fits : ∀ value ∈ values, value.toNat < 2 ^ 29) :
      WellShaped .varInt (.ints values)
  | string {value : GoString} (valid : utf8Valid value = true) (fits : value.length ≤ MaxLPString) :
      WellShaped .string (.string value)
  | pairs {values : List StringPair}
      (valid : ∀ pair ∈ values, utf8Valid pair.K = true ∧ utf8Valid pair.V = true)
      (fits : ∀ pair ∈ values, pair.K.length ≤ MaxLPString ∧ pair.V.length ≤ MaxLPString) :
      WellShaped .stringPair (.pairs values)
  | binary {value : Bytes} (fits : value.length ≤ MaxLPString) : WellShaped .binary (.bytes value)

/-- The values of a property type that the decoder stores. -/
inductive Canonical : PropertyType → PropertyValue → Prop
  | byte (value : UInt8) : Canonical .byte (.byte value)
  | short (value : UInt16) : Canonical .short (.short value)
  | int (value : UInt32) : Canonical .int (.int value)
  | varInt {value : UInt32} (fits : value.toNat < 2 ^ 29) : Canonical .varInt (.int value)
  | string {value : GoString} (valid : utf8Valid value = true) (fits : value.length ≤ MaxLPString) :
      Canonical .string (.string value)
  | pairs {values : List StringPair} (nonempty : values ≠ [])
      (valid : ∀ pair ∈ values, utf8Valid pair.K = true ∧ utf8Valid pair.V = true)
      (fits : ∀ pair ∈ values, pair.K.length ≤ MaxLPString ∧ pair.V.length ≤ MaxLPString) :
      Canonical .stringPair (.pairs values)
  | binary {value : Bytes} (fits : value.length ≤ MaxLPString) : Canonical .binary (.bytes value)

theorem Canonical.wellShaped {type : PropertyType} {val : PropertyValue}
    (canonical : Canonical type val) : WellShaped type val := by
  cases canonical with
  | byte value => exact .byte value
  | short value => exact .short value
  | int value => exact .int value
  | varInt fits => exact .varInt fits
  | string valid fits => exact .string valid fits
  | pairs nonempty valid fits => exact .pairs valid fits
  | binary fits => exact .binary fits

/-- The values whose length `Set` adds up as the encoder writes them: no text is too long for its
length field, and no list of byte strings is given to a binary property. -/
def Countable (type : PropertyType) (val : PropertyValue) : Prop :=
  match type with
  | .string => ∀ text ∈ val.stringItems, text.length ≤ MaxLPString
  | .stringPair => ∀ pair ∈ val.pairItems, pair.K.length ≤ MaxLPString ∧ pair.V.length ≤ MaxLPString
  | .binary =>
      val.binaryItems.map List.length = val.binaryLengths ∧
        ∀ text ∈ val.binaryItems, text.length ≤ MaxLPString
  | _ => True

theorem WellShaped.countable {type : PropertyType} {val : PropertyValue}
    (shaped : WellShaped type val) : Countable type val := by
  cases shaped with
  | byte _ | short _ | int _ | varInt _ | varInts _ => trivial
  | string valid fits => simpa [Countable, PropertyValue.stringItems] using fits
  | pairs valid fits => exact fits
  | binary fits =>
      simpa [Countable, PropertyValue.binaryItems, PropertyValue.binaryLengths] using fits

/-- The payloads of the items that a value is written as. -/
def itemPayloads (type : PropertyType) (val : PropertyValue) : List Bytes :=
  match type with
  | .byte => val.byteItems.map fun value => [value]
  | .short => val.shortItems.map putUint16
  | .int => val.intItems.map putUint32
  | .varInt => val.intItems.map fun value => putUvarint value.toNat
  | .string => val.stringItems.map lpBytes
  | .stringPair => val.pairItems.map fun pair => lpBytes pair.K ++ lpBytes pair.V
  | .binary => val.binaryItems.map lpBytes

/-- The items that a list of map entries is written as. -/
def wireItems (entries : List PropertyEntry) : List (PropertyID × Bytes) :=
  entries.flatMap fun entry =>
    (itemPayloads (propertyTypeMap entry.1) entry.2).map fun payload => (entry.1, payload)

/-- The bytes of one item. -/
def itemBytes (item : PropertyID × Bytes) : Bytes := putUvarint item.1.toNat ++ item.2

/-- The bytes of a list of items. -/
def blockBytes (items : List (PropertyID × Bytes)) : Bytes := items.flatMap itemBytes

@[simp]
theorem blockBytes_nil : blockBytes [] = [] := rfl

@[simp]
theorem blockBytes_cons (item : PropertyID × Bytes) (items : List (PropertyID × Bytes)) :
    blockBytes (item :: items) = itemBytes item ++ blockBytes items := rfl

theorem length_itemBytes (item : PropertyID × Bytes) :
    (itemBytes item).length = item.2.length + uvarintCalc item.1 := by
  rw [itemBytes, List.length_append, uvarintCalc_eq_length, Nat.add_comm]

theorem emits_writeLPBytesDropErr {good : Bytes → Prop} {field : Bytes}
    (fits : field.length ≤ MaxLPString) : Emits good (writeLPBytesDropErr field) (lpBytes field) := by
  intro dest isGood enough
  have written := emits_writeLPBytes fits dest isGood enough
  rw [length_lpBytes] at enough
  simp only [writeLPBytesDropErr, if_neg (Nat.not_lt.mpr fits), if_neg (Nat.not_lt.mpr enough)]
  exact written

theorem emits_encodeItems {good : Bytes → Prop}
    (inherited : ∀ dest count, good dest → good (dest.drop count)) {α : Type} (id : PropertyID)
    {encode : α → Writer PacketError} {bytes : α → Bytes} {items : List α}
    (itemEmits : ∀ item ∈ items, Emits good (encode item) (bytes item)) :
    Emits good (encodeItems id encode items)
      (blockBytes ((items.map bytes).map fun payload => (id, payload))) := by
  have each : Emits good (Writer.each (fun item => .seq (writePrefixID id) (encode item)) items)
      (items.flatMap fun item => putUvarint id.toNat ++ bytes item) :=
    Emits.each inherited fun item member =>
      (emits_put (putUvarint id.toNat)).seq inherited (itemEmits item member)
  simpa [encodeItems, blockBytes, itemBytes, List.flatMap_map] using each

/-- The encoder of an entry writes its items. -/
theorem emits_propertyEncodeType {good : Bytes → Prop}
    (inherited : ∀ dest count, good dest → good (dest.drop count)) {entry : PropertyEntry}
    (countable : Countable (propertyTypeMap entry.1) entry.2) :
    Emits good (propertyEncodeType entry.1 entry.2) (blockBytes (wireItems [entry])) := by
  rcases entry with ⟨id, val⟩
  simp only [wireItems, List.flatMap_cons, List.flatMap_nil, List.append_nil, propertyEncodeType]
  generalize propertyTypeMap id = type at countable
  cases type with
  | byte => exact emits_encodeItems inherited id fun item _ => emits_put [item]
  | short => exact emits_encodeItems inherited id fun item _ => emits_put (putUint16 item)
  | int => exact emits_encodeItems inherited id fun item _ => emits_put (putUint32 item)
  | varInt => exact emits_encodeItems inherited id fun item _ => emits_put (putUvarint item.toNat)
  | string =>
      exact emits_encodeItems inherited id fun item member =>
        emits_writeLPBytesDropErr (countable item member)
  | stringPair =>
      exact emits_encodeItems inherited id fun item member =>
        (emits_writeLPBytesDropErr (countable item member).1).seq inherited
          (emits_writeLPBytesDropErr (countable item member).2)
  | binary =>
      exact emits_encodeItems inherited id fun item member =>
        emits_writeLPBytesDropErr (countable.2 item member)

theorem calcLenItems_eq_length {α : Type} (id : PropertyID) {width : α → ℕ} {bytes : α → Bytes}
    (agree : ∀ item, width item = (bytes item).length) (items : List α) :
    calcLenItems id width items =
      (blockBytes ((items.map bytes).map fun payload => (id, payload))).length := by
  induction items with
  | nil => rfl
  | cons item items ih =>
      rw [calcLenItems, List.map_cons, List.sum_cons, ← calcLenItems, ih]
      simp [length_itemBytes, agree item]

/-- The length tracked for an entry is the number of bytes its items take. -/
theorem propertyCalcLen_eq_length {entry : PropertyEntry}
    (countable : Countable (propertyTypeMap entry.1) entry.2) :
    propertyCalcLen entry.1 entry.2 = (blockBytes (wireItems [entry])).length := by
  rcases entry with ⟨id, val⟩
  simp only [wireItems, List.flatMap_cons, List.flatMap_nil, List.append_nil, propertyCalcLen]
  generalize propertyTypeMap id = type at countable
  cases type with
  | byte => exact calcLenItems_eq_length id (fun value => show 1 = [value].length from rfl) _
  | short => exact calcLenItems_eq_length id (fun _ => (length_putUint16 _).symm) _
  | int => exact calcLenItems_eq_length id (fun _ => (length_putUint32 _).symm) _
  | varInt => exact calcLenItems_eq_length id uvarintCalc_eq_length _
  | string => exact calcLenItems_eq_length id (fun _ => (length_lpBytes _).symm) _
  | stringPair =>
      refine calcLenItems_eq_length id (fun pair => ?_) _
      rw [List.length_append, length_lpBytes, length_lpBytes]
      omega
  | binary =>
      have lengths : calcLenBinary id val =
          calcLenItems id (fun text => 2 + text.length) val.binaryItems := by
        simp [calcLenBinary, ← countable.1, calcLenItems, Function.comp_def]
      simp only [lengths]
      exact calcLenItems_eq_length id (fun _ => (length_lpBytes _).symm) _

theorem wireItems_cons (entry : PropertyEntry) (entries : List PropertyEntry) :
    wireItems (entry :: entries) = wireItems [entry] ++ wireItems entries := by
  simp [wireItems]

theorem blockBytes_append (left right : List (PropertyID × Bytes)) :
    blockBytes (left ++ right) = blockBytes left ++ blockBytes right := by
  simp [blockBytes]

theorem blockBytes_wireItems (entries : List PropertyEntry) :
    blockBytes (wireItems entries) = entries.flatMap fun entry => blockBytes (wireItems [entry]) := by
  induction entries with
  | nil => rfl
  | cons entry entries ih =>
      rw [wireItems_cons, blockBytes_append, ih, List.flatMap_cons]

/-- The encoded size of the entries of a property map. -/
def weight (entries : List PropertyEntry) : ℕ :=
  (entries.map fun entry => propertyCalcLen entry.1 entry.2).sum

theorem length_blockBytes_wireItems {entries : List PropertyEntry}
    (countable : ∀ entry ∈ entries, Countable (propertyTypeMap entry.1) entry.2) :
    (blockBytes (wireItems entries)).length = weight entries := by
  induction entries with
  | nil => rfl
  | cons entry entries ih =>
      have rest := ih fun other member => countable other (by simp [member])
      rw [wireItems_cons, blockBytes_append, List.length_append, rest,
        ← propertyCalcLen_eq_length (countable entry (by simp)), weight, weight, List.map_cons,
        List.sum_cons]

/-- A block whose length field is right. -/
structure Property.Counted (p : Property) : Prop where
  countable : ∀ entry ∈ p.properties.entries, Countable (propertyTypeMap entry.1) entry.2
  exact : p.len.toNat = weight p.properties.entries
  bounded : p.len.toNat + 5 < 2 ^ 32

/-- A block whose entries can be encoded and whose length field is right. -/
structure Property.Encodable (p : Property) : Prop where
  shaped : ∀ entry ∈ p.properties.entries, WellShaped (propertyTypeMap entry.1) entry.2
  exact : p.len.toNat = weight p.properties.entries
  bounded : p.len.toNat + 5 < 2 ^ 32

namespace Property

/-- The bytes of a property block in an iteration order. -/
def bytes (order : MapOrder PropertyEntry) (p : Property) : Bytes :=
  putUvarint p.len.toNat ++ blockBytes (wireItems (order.range p.properties.entries))

variable {p : Property} (order : MapOrder PropertyEntry)

theorem Encodable.counted (encodable : p.Encodable) : p.Counted where
  countable entry member := (encodable.shaped entry member).countable
  exact := encodable.exact
  bounded := encodable.bounded

namespace Counted

theorem length_block (counted : p.Counted) :
    (blockBytes (wireItems (order.range p.properties.entries))).length = p.len.toNat := by
  have same := order.perm p.properties.entries
  rw [length_blockBytes_wireItems fun entry member => counted.countable entry
    (same.mem_iff.mp member), counted.exact]
  exact (same.map _).sum_nat

theorem toNat_fullLen (counted : p.Counted) :
    p.fullLen.toNat = p.len.toNat + uvarintCalc p.len := by
  have bounded := counted.bounded
  have width := uvarintCalc_le p.len
  rw [fullLen, UInt32.toNat_add, UInt32.toNat_ofNat']
  omega

theorem length_bytes (counted : p.Counted) : (p.bytes order).length = p.fullLen.toNat := by
  rw [bytes, List.length_append, counted.length_block order, counted.toNat_fullLen,
    uvarintCalc_eq_length]
  omega

/-- The encoders of the entries write their items, one after the other. -/
theorem emits_entries {good : Bytes → Prop}
    (inherited : ∀ dest count, good dest → good (dest.drop count)) (counted : p.Counted) :
    Emits good (Writer.each (fun entry : PropertyEntry => propertyEncodeType entry.1 entry.2)
        (order.range p.properties.entries))
      (blockBytes (wireItems (order.range p.properties.entries))) := by
  rw [blockBytes_wireItems]
  apply Emits.each inherited
  intro entry member
  exact emits_propertyEncodeType inherited
    (counted.countable entry ((order.perm p.properties.entries).mem_iff.mp member))

/-- A block is skipped only if it is empty. -/
theorem len_of_fullLen (counted : p.Counted) (single : p.fullLen = 1) : p.len = 0 := by
  have one : p.fullLen.toNat = 1 := by rw [single]; rfl
  have split := counted.toNat_fullLen
  have positive := uvarintCalc_pos p.len
  rw [← UInt32.toNat_inj]
  change p.len.toNat = 0
  omega

theorem emits_block {good : Bytes → Prop}
    (inherited : ∀ dest count, good dest → good (dest.drop count)) (counted : p.Counted)
    (more : p.fullLen ≠ 1) : Emits good (p.encode order) (p.bytes order) := by
  intro dest isGood enough
  have full := counted.length_bytes order
  simp only [encode, if_neg (show ¬dest.length < p.fullLen.toNat by omega), if_neg more]
  exact ((emits_put (putUvarint p.len.toNat)).seq inherited
    (counted.emits_entries order inherited)) dest isGood enough

end Counted

theorem length_block (encodable : p.Encodable) :
    (blockBytes (wireItems (order.range p.properties.entries))).length = p.len.toNat :=
  encodable.counted.length_block order

theorem toNat_fullLen (encodable : p.Encodable) :
    p.fullLen.toNat = p.len.toNat + uvarintCalc p.len := encodable.counted.toNat_fullLen

theorem length_bytes (encodable : p.Encodable) : (p.bytes order).length = p.fullLen.toNat :=
  encodable.counted.length_bytes order

/-- In a fresh buffer the encoder leaves the block, also when it skips the single zero byte of
an empty one. -/
theorem emits_encode (encodable : p.Encodable) : Emits Fresh (p.encode order) (p.bytes order) := by
  by_cases single : p.fullLen = 1
  · intro dest fresh enough
    have full := length_bytes order encodable
    have lenZero := encodable.counted.len_of_fullLen single
    have block : blockBytes (wireItems (order.range p.properties.entries)) = [] := by
      rw [← List.length_eq_zero_iff, length_block order encodable, lenZero]
      rfl
    have zero : p.bytes order = [0] := by
      rw [bytes, block, lenZero]
      rfl
    simp only [encode, if_neg (show ¬dest.length < p.fullLen.toNat by omega), if_pos single, zero]
    cases dest with
    | nil =>
        rw [zero] at enough
        simp at enough
    | cons byte rest =>
        have isZero : byte = 0 := fresh byte (by simp)
        simp [isZero]
  · exact encodable.counted.emits_block order (fun _ count isFresh => isFresh.drop count) single

end Property

/-- User properties are held as a list of pairs, which the decoder appends to. -/
def PairsHeld (props : PropertyMap) : Prop :=
  ∀ id val, props.lookup id = some val → propertyTypeMap id = .stringPair →
    ∃ values, val = .pairs values

/-- The pairs that the decoder appends to. -/
theorem PairsHeld.before {props : PropertyMap} (held : PairsHeld props) (id : PropertyID)
    (isPair : propertyTypeMap id = .stringPair) :
    ∃ old, (props.lookup id = none ∧ old = []) ∨ props.lookup id = some (.pairs old) := by
  cases look : props.lookup id with
  | none => exact ⟨[], .inl ⟨rfl, rfl⟩⟩
  | some val =>
      rcases held id val look isPair with ⟨old, rfl⟩
      exact ⟨old, .inr rfl⟩

theorem PairsHeld.insert {props : PropertyMap} (held : PairsHeld props) {id : PropertyID}
    {val : PropertyValue} (pairs : propertyTypeMap id = .stringPair → ∃ values, val = .pairs values) :
    PairsHeld (props.insert id val) := by
  intro other found look isPair
  by_cases same : other = id
  · subst other
    rw [AList.lookup_insert, Option.some.injEq] at look
    exact look ▸ pairs isPair
  · rw [AList.lookup_insert_ne same] at look
    exact held other found look isPair

theorem decodeVarInt_putUvarint (props : PropertyMap) (id : PropertyID) {value : UInt32}
    (fits : value.toNat < 2 ^ 29) (rest : Bytes) :
    decodeVarInt props id (putUvarint value.toNat ++ rest) =
      .ok (props.insert id (.int value), (putUvarint value.toNat).length) := by
  have positive : 0 < (putUvarint value.toNat).length := by
    rw [← uvarintCalc_eq_length]
    exact uvarintCalc_pos value
  have nonzero : ¬((putUvarint value.toNat).length : Int) ≤ 0 := by omega
  simp only [decodeVarInt, uvarint_putUvarint fits, if_neg nonzero, Int.toNat_natCast,
    UInt32.ofNat_toNat]

/-- A pair is appended to the pairs held so far. -/
theorem decodeStringPair_lpBytes {props : PropertyMap} {id : PropertyID} {pair : StringPair}
    {old : List StringPair}
    (held : (props.lookup id = none ∧ old = []) ∨ props.lookup id = some (.pairs old))
    (valid : utf8Valid pair.K = true ∧ utf8Valid pair.V = true)
    (fits : pair.K.length ≤ MaxLPString ∧ pair.V.length ≤ MaxLPString) (rest : Bytes) :
    decodeStringPair props id (lpBytes pair.K ++ lpBytes pair.V ++ rest) =
      .ok (props.insert id (.pairs (old ++ [pair])),
        (lpBytes pair.K ++ lpBytes pair.V).length) := by
  have second : (lpBytes pair.K ++ (lpBytes pair.V ++ rest)).drop (2 + pair.K.length) =
      lpBytes pair.V ++ rest := by
    rw [← length_lpBytes, List.drop_left]
  simp only [decodeStringPair, List.append_assoc, readLPBytes_lpBytes fits.1, valid.1, second,
    readLPBytes_lpBytes fits.2, valid.2, Bool.not_true, Bool.false_eq_true, if_false,
    List.length_append, length_lpBytes]
  rcases held with ⟨absent, rfl⟩ | present
  · rw [absent]
    rfl
  · rw [present]

/-- The decoder of an identifier consumes one payload of a well-shaped value. -/
theorem propertyDecodeType_payload {id : PropertyID} {val : PropertyValue}
    (shaped : WellShaped (propertyTypeMap id) val) {payload : Bytes}
    (member : payload ∈ itemPayloads (propertyTypeMap id) val) {props : PropertyMap}
    (held : PairsHeld props) (rest : Bytes) :
    ∃ found, propertyDecodeType id props (payload ++ rest) =
        .ok (props.insert id found, payload.length) ∧
      (propertyTypeMap id = .stringPair → ∃ values, found = .pairs values) := by
  have before := held.before id
  unfold propertyDecodeType
  generalize propertyTypeMap id = type at shaped member before
  cases shaped with
  | byte value =>
      simp only [itemPayloads, PropertyValue.byteItems, List.map_cons, List.map_nil,
        List.mem_singleton] at member
      subst member
      exact ⟨.byte value, rfl, by simp⟩
  | short value =>
      simp only [itemPayloads, PropertyValue.shortItems, List.map_cons, List.map_nil,
        List.mem_singleton] at member
      subst member
      exact ⟨_, rfl, by simp⟩
  | int value =>
      simp only [itemPayloads, PropertyValue.intItems, List.map_cons, List.map_nil,
        List.mem_singleton] at member
      subst member
      exact ⟨_, rfl, by simp⟩
  | @varInt value fits =>
      simp only [itemPayloads, PropertyValue.intItems, List.map_cons, List.map_nil,
        List.mem_singleton] at member
      subst member
      exact ⟨.int value, decodeVarInt_putUvarint props id fits rest, by simp⟩
  | varInts fits =>
      simp only [itemPayloads, PropertyValue.intItems, List.mem_map] at member
      rcases member with ⟨value, valueMember, rfl⟩
      exact ⟨.int value, decodeVarInt_putUvarint props id (fits value valueMember) rest, by simp⟩
  | @string value valid fits =>
      simp only [itemPayloads, PropertyValue.stringItems, List.map_cons, List.map_nil,
        List.mem_singleton] at member
      subst member
      refine ⟨.string value, ?_, by simp⟩
      simp [decodeString, readLPBytes_lpBytes fits, valid]
  | pairs valid fits =>
      simp only [itemPayloads, PropertyValue.pairItems, List.mem_map] at member
      rcases member with ⟨pair, pairMember, rfl⟩
      rcases before rfl with ⟨old, before⟩
      exact ⟨_, decodeStringPair_lpBytes before (valid pair pairMember) (fits pair pairMember) rest,
        fun _ => ⟨_, rfl⟩⟩
  | @binary value fits =>
      simp only [itemPayloads, PropertyValue.binaryItems, List.map_cons, List.map_nil,
        List.mem_singleton] at member
      subst member
      refine ⟨.bytes value, ?_, by simp⟩
      simp [decodeBinary, readLPBytes_lpBytes fits]

namespace Property

/-- Items that a decoding loop accepts: their identifiers may appear in the packet, their
payloads belong to well-shaped values, and only identifiers that allow it are repeated. -/
structure Acceptable (t : PacketType) (items : List (PropertyID × Bytes)) : Prop where
  small : ∀ item ∈ items, item.1.toNat < 2 ^ 29
  allowed : ∀ item ∈ items, PropertyID.isValidPacketType item.1 t = true
  readable : ∀ item ∈ items, ∃ val, WellShaped (propertyTypeMap item.1) val ∧
    item.2 ∈ itemPayloads (propertyTypeMap item.1) val
  repeated : items.Pairwise fun earlier later =>
    earlier.1 = later.1 → PropertyID.dupAllowed earlier.1 t = true

theorem Acceptable.tail {t : PacketType} {item : PropertyID × Bytes}
    {items : List (PropertyID × Bytes)} (acceptable : Acceptable t (item :: items)) :
    Acceptable t items where
  small other member := acceptable.small other (by simp [member])
  allowed other member := acceptable.allowed other (by simp [member])
  readable other member := acceptable.readable other (by simp [member])
  repeated := (List.pairwise_cons.mp acceptable.repeated).2

/-- One round of the loop consumes one item. -/
theorem decodeLoop_item {t : PacketType} {p : Property} {id : PropertyID} {payload rest : Bytes}
    {next : PropertyMap} {left : ℕ} (small : id.toNat < 2 ^ 29)
    (allowed : PropertyID.isValidPacketType id t = true)
    (unseen : id ∈ p.properties → PropertyID.dupAllowed id t = true)
    (decoded : propertyDecodeType id p.properties (payload ++ rest) = .ok (next, payload.length))
    (short : (itemBytes (id, payload)).length + left < 2 ^ 32) (rounds offset : ℕ) :
    decodeLoop t (rounds + 1) p (UInt32.ofNat ((itemBytes (id, payload)).length + left))
        (itemBytes (id, payload) ++ rest) offset =
      decodeLoop t rounds ⟨next, p.len + UInt32.ofNat (itemBytes (id, payload)).length⟩
        (UInt32.ofNat left) rest (offset + (itemBytes (id, payload)).length) := by
  have idLength : 0 < (putUvarint id.toNat).length := by
    rw [← uvarintCalc_eq_length]
    exact uvarintCalc_pos id
  have notMalformed : ¬((putUvarint id.toNat).length : Int) ≤ 0 := by omega
  have total : (itemBytes (id, payload)).length = (putUvarint id.toNat).length + payload.length := by
    rw [itemBytes, List.length_append]
  have more : UInt32.ofNat ((itemBytes (id, payload)).length + left) ≠ 0 := by
    rw [Ne, ← UInt32.toNat_inj, UInt32.toNat_ofNat', Nat.mod_eq_of_lt short, UInt32.toNat_zero]
    omega
  have newKey : ((p.properties.lookup id).isSome && !PropertyID.dupAllowed id t) = false := by
    cases look : p.properties.lookup id with
    | none => rfl
    | some old => simp [unseen (AList.lookup_isSome.mp (by simp [look]))]
  have remaining : UInt32.ofNat ((itemBytes (id, payload)).length + left) -
      UInt32.ofNat (itemBytes (id, payload)).length = UInt32.ofNat left := by
    rw [UInt32.ofNat_add, UInt32.add_comm, UInt32.add_sub_cancel]
  have dropped : (putUvarint id.toNat ++ (payload ++ rest)).drop
      ((putUvarint id.toNat).length + payload.length) = rest := by
    rw [← List.drop_drop, List.drop_left, List.drop_left]
  rw [decodeLoop, if_neg more, itemBytes, List.append_assoc, uvarint_putUvarint small,
    UInt32.ofNat_toNat]
  rw [total] at remaining
  simp only [if_neg notMalformed, allowed, Bool.not_true, Bool.false_eq_true, if_false, newKey,
    Int.toNat_natCast, List.drop_left, decoded, dropped, List.length_append, remaining]

/-- The loop consumes acceptable items to the last byte. -/
theorem decodeLoop_items {t : PacketType} {items : List (PropertyID × Bytes)}
    (acceptable : Acceptable t items) (short : (blockBytes items).length < 2 ^ 32) (p : Property)
    (held : PairsHeld p.properties)
    (unseen : ∀ item ∈ items, item.1 ∈ p.properties → PropertyID.dupAllowed item.1 t = true)
    {rounds : ℕ} (enough : items.length < rounds) (rest : Bytes) (offset : ℕ) :
    ∃ done, decodeLoop t rounds p (UInt32.ofNat (blockBytes items).length)
      (blockBytes items ++ rest) offset = .ok (done, offset + (blockBytes items).length) := by
  induction items generalizing p rounds offset with
  | nil =>
      cases rounds with
      | zero => omega
      | succ rounds => exact ⟨p, by simp [decodeLoop]⟩
  | cons item items ih =>
      rcases item with ⟨id, payload⟩
      cases rounds with
      | zero => omega
      | succ rounds =>
          rcases acceptable.readable (id, payload) (by simp) with ⟨val, shaped, member⟩
          rcases propertyDecodeType_payload shaped member held (blockBytes items ++ rest) with
            ⟨found, decoded, pairs⟩
          have unseenTail : ∀ item ∈ items, item.1 ∈ p.properties.insert id found →
              PropertyID.dupAllowed item.1 t = true := by
            intro item itemMember present
            rcases (AList.mem_insert _).mp present with same | old
            · have repeats := (List.pairwise_cons.mp acceptable.repeated).1 item itemMember
              exact same ▸ repeats same.symm
            · exact unseen item (by simp [itemMember]) old
          rw [blockBytes_cons, List.length_append] at short
          rw [blockBytes_cons, List.length_append, List.append_assoc,
            decodeLoop_item (acceptable.small (id, payload) (by simp))
              (acceptable.allowed (id, payload) (by simp)) (unseen (id, payload) (by simp)) decoded
              short]
          rcases ih acceptable.tail (by omega)
            ⟨p.properties.insert id found, p.len + UInt32.ofNat (itemBytes (id, payload)).length⟩
            (held.insert pairs) unseenTail (by simpa using enough)
            (offset + (itemBytes (id, payload)).length) with ⟨done, run⟩
          exact ⟨done, by rw [run, Nat.add_assoc]⟩

theorem acceptable_wireItems {t : PacketType} {entries : List PropertyEntry}
    (keys : entries.NodupKeys)
    (shaped : ∀ entry ∈ entries, WellShaped (propertyTypeMap entry.1) entry.2)
    (small : ∀ entry ∈ entries, entry.1.toNat < 2 ^ 29)
    (allowed : ∀ entry ∈ entries, PropertyID.isValidPacketType entry.1 t = true)
    (single : ∀ entry ∈ entries, PropertyID.dupAllowed entry.1 t = true ∨
      (itemPayloads (propertyTypeMap entry.1) entry.2).length ≤ 1) :
    Acceptable t (wireItems entries) := by
  have origin : ∀ item ∈ wireItems entries, ∃ entry ∈ entries, entry.1 = item.1 ∧
      item.2 ∈ itemPayloads (propertyTypeMap entry.1) entry.2 := by
    intro item member
    simp only [wireItems, List.mem_flatMap, List.mem_map] at member
    rcases member with ⟨entry, entryMember, payload, payloadMember, rfl⟩
    exact ⟨entry, entryMember, rfl, payloadMember⟩
  refine ⟨?_, ?_, ?_, ?_⟩
  · intro item member
    rcases origin item member with ⟨entry, entryMember, same, _⟩
    exact same ▸ small entry entryMember
  · intro item member
    rcases origin item member with ⟨entry, entryMember, same, _⟩
    exact same ▸ allowed entry entryMember
  · intro item member
    rcases origin item member with ⟨entry, entryMember, same, payloadMember⟩
    exact ⟨entry.2, same ▸ shaped entry entryMember, same ▸ payloadMember⟩
  · clear origin
    induction entries with
    | nil => simp [wireItems]
    | cons entry entries ih =>
        rw [List.nodupKeys_cons] at keys
        rw [wireItems_cons, List.pairwise_append]
        refine ⟨?_, ?_, ?_⟩
        · simp only [wireItems, List.flatMap_cons, List.flatMap_nil, List.append_nil,
            List.pairwise_map]
          rcases single entry (by simp) with dup | few
          · exact List.pairwise_of_forall fun _ _ _ => dup
          · match items : itemPayloads (propertyTypeMap entry.1) entry.2, few with
            | [], _ => exact .nil
            | [_], _ => exact List.pairwise_singleton _ _
        · exact ih keys.2 (fun other member => shaped other (by simp [member]))
            (fun other member => small other (by simp [member]))
            (fun other member => allowed other (by simp [member]))
            (fun other member => single other (by simp [member]))
        · intro first firstMember second secondMember same
          simp only [wireItems, List.flatMap_cons, List.flatMap_nil, List.append_nil,
            List.mem_map] at firstMember
          rcases firstMember with ⟨_, _, rfl⟩
          simp only [wireItems, List.mem_flatMap, List.mem_map] at secondMember
          rcases secondMember with ⟨other, otherMember, _, _, rfl⟩
          have inKeys : other.1 ∈ entries.keys := List.mem_keys_of_mem otherMember
          change entry.1 = other.1 at same
          exact absurd (same ▸ inKeys) keys.1

end Property

/-- The identifiers of the properties of a PUBLISH. -/
def publishPropertyIDs : List PropertyID :=
  [PropertyPayloadFormat, PropertyPublicationExpiry, PropertyContentType, PropertyResponseTopic,
    PropertyCorrelationData, PropertySubscriptionIdentifier, PropertyTopicAlias,
    PropertyUserProperty]

theorem mem_publishPropertyIDs {id : PropertyID}
    (allowed : PropertyID.isValidPacketType id .PUBLISH = true) : id ∈ publishPropertyIDs := by
  unfold PropertyID.isValidPacketType at allowed
  split at allowed
  · simp at allowed
  · rename_i types found
    rcases List.lookup_eq_some_iff.mp found with ⟨front, back, whole, _⟩
    have row : (id, types) ∈ propertyAllowedMessageTypes := by simp [whole]
    have table : propertyAllowedMessageTypes.all (fun row =>
        !(row.2.lookup .PUBLISH).isSome || publishPropertyIDs.contains row.1) = true := by decide
    have here := List.all_eq_true.mp table (id, types) row
    simp only [allowed, Bool.not_true, Bool.false_or] at here
    exact List.contains_iff_mem.mp here

theorem isValidPacketType_of_mem {id : PropertyID} (known : id ∈ publishPropertyIDs) :
    PropertyID.isValidPacketType id .PUBLISH = true := by
  have table : publishPropertyIDs.all
      (fun id => PropertyID.isValidPacketType id .PUBLISH) = true := by decide
  exact List.all_eq_true.mp table id known

/-- What is repeated in a PUBLISH is written under an identifier that may be repeated. -/
theorem dupAllowed_or_single {entry : PropertyEntry} (known : entry.1 ∈ publishPropertyIDs)
    (shaped : WellShaped (propertyTypeMap entry.1) entry.2) :
    PropertyID.dupAllowed entry.1 .PUBLISH = true ∨
      (itemPayloads (propertyTypeMap entry.1) entry.2).length ≤ 1 := by
  have table : publishPropertyIDs.all (fun id =>
      !(propertyTypeMap id == .varInt || propertyTypeMap id == .stringPair) ||
        PropertyID.dupAllowed id .PUBLISH) = true := by decide
  rcases entry with ⟨id, val⟩
  have here : propertyTypeMap id = .varInt ∨ propertyTypeMap id = .stringPair →
      PropertyID.dupAllowed id .PUBLISH = true := by
    intro type
    have row := List.all_eq_true.mp table id known
    rcases type with type | type <;> simpa [type] using row
  simp only at shaped ⊢
  generalize propertyTypeMap id = type at here shaped
  cases shaped with
  | varInt | varInts => exact .inl (here (.inl rfl))
  | pairs => exact .inl (here (.inr rfl))
  | byte | short | int | string | binary => exact .inr (by simp [itemPayloads,
      PropertyValue.byteItems, PropertyValue.shortItems, PropertyValue.intItems,
      PropertyValue.stringItems, PropertyValue.binaryItems])

namespace Property

variable {p : Property} (order : MapOrder PropertyEntry)

/-- The block of a PUBLISH is read back to its last byte, in every iteration order. -/
theorem decode_bytes (encodable : p.Encodable) (short : p.len.toNat < 2 ^ 29)
    (known : ∀ entry ∈ p.properties.entries, entry.1 ∈ publishPropertyIDs) (rest : Bytes) :
    ∃ done, Property.empty.decode .PUBLISH (p.bytes order ++ rest) =
      .ok (done, (p.bytes order).length) := by
  have same := order.perm p.properties.entries
  have members : ∀ entry ∈ order.range p.properties.entries, entry ∈ p.properties.entries :=
    fun entry member => same.mem_iff.mp member
  have smallTable : publishPropertyIDs.all (fun id => decide (id.toNat < 2 ^ 29)) = true := by
    decide
  have acceptable : Acceptable .PUBLISH (wireItems (order.range p.properties.entries)) := by
    refine acceptable_wireItems ((List.perm_nodupKeys same).mpr p.properties.nodupKeys) ?_ ?_ ?_ ?_
    · exact fun entry member => encodable.shaped entry (members entry member)
    · exact fun entry member => of_decide_eq_true
        (List.all_eq_true.mp smallTable _ (known entry (members entry member)))
    · exact fun entry member => isValidPacketType_of_mem (known entry (members entry member))
    · exact fun entry member => dupAllowed_or_single (known entry (members entry member))
        (encodable.shaped entry (members entry member))
  generalize items : wireItems (order.range p.properties.entries) = list at acceptable
  have block : (blockBytes list).length = p.len.toNat := items ▸ length_block order encodable
  have fewItems : list.length ≤ (blockBytes list).length := by
    clear block acceptable items
    induction list with
    | nil => simp
    | cons item list ih =>
        have positive := uvarintCalc_pos item.1
        simp only [blockBytes_cons, List.length_append, length_itemBytes, List.length_cons]
        omega
  have prefixPos : ¬((putUvarint p.len.toNat).length : Int) ≤ 0 := by
    rw [← uvarintCalc_eq_length]
    have := uvarintCalc_pos p.len
    omega
  rcases decodeLoop_items acceptable (by omega) Property.empty (by simp [PairsHeld, empty])
    (by simp [empty])
    (show list.length < (p.bytes order ++ rest).length + 1 by
      rw [bytes, items, List.length_append, List.length_append]
      omega)
    rest (putUvarint p.len.toNat).length with ⟨done, run⟩
  refine ⟨done, ?_⟩
  rw [decode, bytes, items, List.append_assoc, uvarint_putUvarint (by omega)]
  simp only [if_neg prefixPos, Int.toNat_natCast, List.drop_left]
  rw [bytes, items, List.append_assoc, block] at run
  rw [run, List.length_append, block]

/-- What one round of a loop that succeeds has done. -/
theorem decodeLoop_eq_ok {t : PacketType} {rounds : ℕ} {p done : Property} {pLen : UInt32}
    {slice : Bytes} {offset n : ℕ}
    (run : decodeLoop t (rounds + 1) p pLen slice offset = .ok (done, n)) :
    (pLen = 0 ∧ done = p ∧ n = offset) ∨
      ∃ id prefixLen props k, pLen ≠ 0 ∧ uvarint slice = (id, prefixLen) ∧ 0 < prefixLen ∧
        PropertyID.isValidPacketType id t = true ∧
        (id ∈ p.properties → PropertyID.dupAllowed id t = true) ∧
        propertyDecodeType id p.properties (slice.drop prefixLen.toNat) = .ok (props, k) ∧
        decodeLoop t rounds ⟨props, p.len + UInt32.ofNat (prefixLen.toNat + k)⟩
          (pLen - UInt32.ofNat (prefixLen.toNat + k)) (slice.drop (prefixLen.toNat + k))
          (offset + (prefixLen.toNat + k)) = .ok (done, n) := by
  rcases header : uvarint slice with ⟨id, prefixLen⟩
  rw [decodeLoop, header] at run
  simp only [malformed] at run
  split at run
  · rename_i zero
    simp only [Except.ok.injEq, Prod.mk.injEq] at run
    exact .inl ⟨zero, run.1.symm, run.2.symm⟩
  · rename_i more
    split at run
    · simp at run
    · rename_i positive
      split at run
      · simp at run
      · rename_i allowed
        split at run
        · simp at run
        · rename_i repeated
          cases value : propertyDecodeType id p.properties (slice.drop prefixLen.toNat) with
          | error fault => simp [value] at run
          | ok result =>
              rcases result with ⟨props, k⟩
              simp only [value] at run
              refine .inr ⟨id, prefixLen, props, k, more, rfl, by omega, by simpa using allowed, ?_,
                value, run⟩
              intro present
              have found : (p.properties.lookup id).isSome := AList.lookup_isSome.mpr present
              simpa [found] using repeated

/-- Decoding a block never consumes less than its length field. -/
theorem le_of_decodeLoop {t : PacketType} {rounds : ℕ} {p done : Property} {pLen : UInt32}
    {slice : Bytes} {offset n : ℕ} (run : decodeLoop t rounds p pLen slice offset = .ok (done, n)) :
    offset ≤ n := by
  induction rounds generalizing p pLen slice offset with
  | zero => simp [decodeLoop, malformed] at run
  | succ rounds ih =>
      rcases decodeLoop_eq_ok run with ⟨-, -, rfl⟩ | ⟨_, _, _, _, -, -, -, -, -, -, rest⟩
      · exact le_refl _
      · have later := ih rest
        omega

theorem pos_of_decode {p done : Property} {t : PacketType} {src : Bytes} {n : ℕ}
    (run : p.decode t src = .ok (done, n)) : 0 < n := by
  simp only [decode, malformed] at run
  split at run
  · simp at run
  · have := le_of_decodeLoop run
    omega

end Property

end VolantMQ.Packet
