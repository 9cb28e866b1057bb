import VolantMQ.Lib.Run
import VolantMQ.Packet.Block
import VolantMQ.Packet.Fields

/-!
# The grammar of property blocks

A property block is a length field and, in as many bytes as it announces, a sequence of
properties. `property.decode` compares nothing with the announced length: it subtracts what each
property took from an unsigned counter and goes on until the counter is zero. A property that runs
past the end of the block makes the counter wrap, and the loop goes on behind the block. It
cannot reach zero again: that would take `2 ^ 32` more bytes.
-/

namespace VolantMQ.Packet

open Lib

/-- The bytes are one integer, as `uvarint` reads it. -/
structure IsUvarint (bytes : Bytes) (value : UInt32) : Prop where
  present : bytes ≠ []
  read : uvarint bytes = (value, (bytes.length : Int))

/-- The bytes are a complete value of the property type. -/
inductive Complete : PropertyType → Bytes → Prop
  | byte (value : UInt8) : Complete .byte [value]
  | short (high low : UInt8) : Complete .short [high, low]
  | int (b3 b2 b1 b0 : UInt8) : Complete .int [b3, b2, b1, b0]
  | varInt {bytes : Bytes} {value : UInt32} (integer : IsUvarint bytes value) : Complete .varInt bytes
  | string {text : Bytes} (fits : text.length ≤ MaxLPString) (valid : utf8Valid text = true) :
      Complete .string (lpBytes text)
  | stringPair {key text : Bytes} (keyFits : key.length ≤ MaxLPString)
      (keyValid : utf8Valid key = true) (fits : text.length ≤ MaxLPString)
      (valid : utf8Valid text = true) : Complete .stringPair (lpBytes key ++ lpBytes text)
  | binary {data : Bytes} (fits : data.length ≤ MaxLPString) : Complete .binary (lpBytes data)

/-- A property as it stands in a block. -/
structure WireProperty where
  id : PropertyID
  identifier : Bytes
  value : Bytes

def WireProperty.bytes (w : WireProperty) : Bytes := w.identifier ++ w.value

/-- The packet type allows the property, and its value is there as a whole. -/
structure WireProperty.WellFormed (t : PacketType) (w : WireProperty) : Prop where
  identifier : IsUvarint w.identifier w.id
  allowed : PropertyID.isValidPacketType w.id t = true
  complete : Complete (propertyTypeMap w.id) w.value

/-- The bytes of the properties of a block. -/
def propertiesBytes (properties : List WireProperty) : Bytes := properties.flatMap WireProperty.bytes

@[simp]
theorem propertiesBytes_nil : propertiesBytes [] = [] := rfl

@[simp]
theorem propertiesBytes_cons (w : WireProperty) (properties : List WireProperty) :
    propertiesBytes (w :: properties) = w.bytes ++ propertiesBytes properties := rfl

/-- A sequence of well-formed properties that repeats only what may be repeated. -/
structure WellFormedBlock (t : PacketType) (properties : List WireProperty) : Prop where
  each : ∀ w ∈ properties, w.WellFormed t
  repeats : properties.Pairwise fun earlier later =>
    earlier.id = later.id → PropertyID.dupAllowed earlier.id t = true

theorem WellFormedBlock.tail {t : PacketType} {w : WireProperty} {properties : List WireProperty}
    (block : WellFormedBlock t (w :: properties)) : WellFormedBlock t properties :=
  ⟨fun other member => block.each other (List.mem_cons_of_mem _ member),
    (List.pairwise_cons.mp block.repeats).2⟩

/-- What follows the first property may follow it also once it is stored. -/
theorem WellFormedBlock.unseen_insert {t : PacketType} {w : WireProperty}
    {properties : List WireProperty} (block : WellFormedBlock t (w :: properties))
    {props : PropertyMap}
    (unseen : ∀ other ∈ w :: properties, other.id ∈ props →
      PropertyID.dupAllowed other.id t = true) (val : PropertyValue) :
    ∀ other ∈ properties, other.id ∈ props.insert w.id val →
      PropertyID.dupAllowed other.id t = true := by
  intro other member present
  rcases (AList.mem_insert _).mp present with same | before
  · exact same ▸ (List.pairwise_cons.mp block.repeats).1 other member same.symm
  · exact unseen other (List.mem_cons_of_mem _ member) before

/-- The bytes start with a length field and as many bytes of properties as it announces, `n` bytes
in all. -/
def StartsWithBlock (t : PacketType) (src : Bytes) (n : ℕ) : Prop :=
  ∃ lengthField rest L properties, IsUvarint lengthField L ∧
    src = lengthField ++ (propertiesBytes properties ++ rest) ∧
    (propertiesBytes properties).length = L.toNat ∧ WellFormedBlock t properties ∧
    n = lengthField.length + L.toNat

theorem uvarintValue_take {buf : Bytes} {value width : ℕ}
    (found : uvarintValue buf = some (value, width)) :
    uvarintValue (buf.take width) = some (value, width) := by
  induction buf generalizing value width with
  | nil => simp [uvarintValue] at found
  | cons byte rest ih =>
      simp only [uvarintValue] at found
      split at found
      · rename_i final
        simp only [Option.some.injEq, Prod.mk.injEq] at found
        rcases found with ⟨rfl, rfl⟩
        simp [uvarintValue, final]
      · rename_i further
        rcases Option.map_eq_some_iff.mp found with ⟨⟨high, most⟩, tail, same⟩
        simp only [Prod.mk.injEq] at same
        rcases same with ⟨rfl, rfl⟩
        simp only [List.take_succ_cons, uvarintValue, if_neg further, ih tail, Option.map_some]

theorem uvarint_take {src : Bytes} (positive : 0 < (uvarint src).2) :
    uvarint (src.take (uvarint src).2.toNat) = uvarint src := by
  have spec := uvarint_eq src
  cases found : uvarintValue src with
  | none =>
      rw [found] at spec
      rw [spec] at positive
      simp at positive
  | some pair =>
      rcases pair with ⟨number, width⟩
      rw [found] at spec
      simp only at spec
      split at spec
      · rename_i fits
        rw [spec, Int.toNat_natCast, uvarint_eq, uvarintValue_take found]
        exact if_pos fits
      · rw [spec] at positive
        simp only at positive
        omega

/-- An integer that `uvarint` reads ends where it says. -/
theorem isUvarint_take {src : Bytes} {value : UInt32} {n : Int} (read : uvarint src = (value, n))
    (positive : 0 < n) : IsUvarint (src.take n.toNat) value := by
  have bound := (uvarint_bound read positive).2.2
  have length : (src.take n.toNat).length = n.toNat := List.length_take_of_le bound
  have same := @uvarint_take src (by rw [read]; exact positive)
  rw [read] at same
  refine ⟨List.ne_nil_of_length_pos (by omega), ?_⟩
  rw [same, length, Int.toNat_of_nonneg (by omega)]

theorem IsUvarint.append {bytes : Bytes} {value : UInt32} (integer : IsUvarint bytes value)
    (more : Bytes) : uvarint (bytes ++ more) = (value, (bytes.length : Int)) := by
  have positive := List.length_pos_iff.mpr integer.present
  have ends : (uvarint bytes).2 ≠ 0 := by
    rw [integer.read]
    simp only
    omega
  rw [← integer.read]
  exact uvarintLoop_append ends more

/-- What a value decoder accepts is a complete value with something behind it. -/
theorem complete_of_propertyDecodeType {id : PropertyID} {props next : PropertyMap} {src : Bytes}
    {k : ℕ} (run : propertyDecodeType id props src = .ok (next, k)) :
    Complete (propertyTypeMap id) (src.take k) := by
  rcases exists_decodedAs run with ⟨val, -, decoded⟩
  generalize propertyTypeMap id = type at decoded
  cases decoded with
  | byte value rest => exact .byte value
  | short high low rest => exact .short high low
  | int b3 b2 b1 b0 rest => exact .int b3 b2 b1 b0
  | varInt read positive => exact .varInt (isUvarint_take read positive)
  | string read valid =>
      rw [take_of_readLPBytes read]
      exact .string (readLPBytes_eq_ok read).1 valid
  | binary read =>
      rw [take_of_readLPBytes read]
      exact .binary (readLPBytes_eq_ok read).1
  | stringPair readKey keyValid read valid before =>
      rw [List.take_add, take_of_readLPBytes readKey, take_of_readLPBytes read]
      exact .stringPair (readLPBytes_eq_ok readKey).1 keyValid (readLPBytes_eq_ok read).1 valid

/-- A value decoder accepts a complete value, whatever follows it. -/
theorem Complete.decoded {id : PropertyID} {value : Bytes}
    (complete : Complete (propertyTypeMap id) value) {props : PropertyMap} (held : PairsHeld props)
    (rest : Bytes) :
    ∃ val, propertyDecodeType id props (value ++ rest) = .ok (props.insert id val, value.length) ∧
      (propertyTypeMap id = .stringPair → ∃ pairs, val = .pairs pairs) := by
  unfold propertyDecodeType
  have before := held.before id
  generalize propertyTypeMap id = type at complete before
  cases complete with
  | byte value => exact ⟨.byte value, rfl, by simp⟩
  | short high low => exact ⟨.short (uint16 high low), rfl, by simp⟩
  | int b3 b2 b1 b0 => exact ⟨.int (uint32 b3 b2 b1 b0), rfl, by simp⟩
  | @varInt _ number integer =>
      have positive := List.length_pos_iff.mpr integer.present
      refine ⟨.int number, ?_, by simp⟩
      simp only [decodeVarInt, integer.append rest]
      rw [if_neg (by omega), Int.toNat_natCast]
  | @string text fits valid =>
      refine ⟨.string text, ?_, by simp⟩
      simp [decodeString, readLPBytes_lpBytes fits, valid]
  | @binary data fits =>
      refine ⟨.bytes data, ?_, by simp⟩
      simp [decodeBinary, readLPBytes_lpBytes fits]
  | @stringPair key text keyFits keyValid fits valid =>
      rcases before rfl with ⟨old, before⟩
      have appended := @decodeStringPair_lpBytes props id ⟨key, text⟩ old before
      exact ⟨_, appended ⟨keyValid, valid⟩ ⟨keyFits, fits⟩ rest, fun _ => ⟨_, rfl⟩⟩

namespace Property

/-- Where the loop of `property.decode` is: the variables `pLen` and `offset`, and the bytes from the
offset on. -/
structure Cursor where
  p : Property
  pLen : UInt32
  slice : Bytes
  offset : ℕ

/-- The loop of `property.decode`: its condition and, if it holds, its body. -/
def decodeRound (t : PacketType) (c : Cursor) : Except (Fault PacketError) (Property × ℕ) ⊕ Cursor :=
  if c.pLen = 0 then .inl (.ok (c.p, c.offset))
  else
    let (id, prefixLen) := uvarint c.slice
    if prefixLen ≤ 0 then .inl malformed
    else if !PropertyID.isValidPacketType id t then .inl malformed
    else if (c.p.properties.lookup id).isSome && !PropertyID.dupAllowed id t then
      .inl (.error (.error (.reason CodeProtocolError)))
    else
      match propertyDecodeType id c.p.properties (c.slice.drop prefixLen.toNat) with
      | .error fault => .inl (.error fault)
      | .ok (props, decodeCount) =>
          let count := prefixLen.toNat + decodeCount
          .inr ⟨⟨props, c.p.len + UInt32.ofNat count⟩, c.pLen - UInt32.ofNat count,
            c.slice.drop count, c.offset + count⟩

/-- `property.decode` on an empty map, with a loop that may go on forever, returns this result. -/
def Returns (t : PacketType) (src : Bytes) (result : Except (Fault PacketError) (Property × ℕ)) :
    Prop :=
  if (uvarint src).2 ≤ 0 then result = malformed
  else Ends (decodeRound t)
    ⟨.empty, (uvarint src).1, src.drop (uvarint src).2.toNat, (uvarint src).2.toNat⟩ result

theorem decodeLoop_succ (t : PacketType) (rounds : ℕ) (c : Cursor) :
    decodeLoop t (rounds + 1) c.p c.pLen c.slice c.offset =
      match decodeRound t c with
      | .inl result => result
      | .inr next => decodeLoop t rounds next.p next.pLen next.slice next.offset := by
  simp only [decodeLoop, decodeRound]
  split
  · rfl
  · split
    · rfl
    · split
      · rfl
      · split
        · rfl
        · cases propertyDecodeType _ _ _ <;> rfl

/-- The loop is left without an error only when the counter is zero. -/
theorem decodeRound_eq_ok {t : PacketType} {c : Cursor} {done : Property} {n : ℕ}
    (left : decodeRound t c = .inl (.ok (done, n))) : c.pLen = 0 ∧ done = c.p ∧ n = c.offset := by
  rcases header : uvarint c.slice with ⟨id, prefixLen⟩
  rw [decodeRound, header] at left
  simp only [malformed] at left
  split at left
  · rename_i zero
    simp only [Sum.inl.injEq, Except.ok.injEq, Prod.mk.injEq] at left
    exact ⟨zero, left.1.symm, left.2.symm⟩
  · split at left
    · simp at left
    · split at left
      · simp at left
      · split at left
        · simp at left
        · split at left <;> simp at left

/-- A round that goes on has read one well-formed property. -/
theorem decodeRound_eq_inr {t : PacketType} {c next : Cursor} (goes : decodeRound t c = .inr next) :
    c.pLen ≠ 0 ∧ ∃ w : WireProperty, ∃ props, c.slice = w.bytes ++ next.slice ∧ w.WellFormed t ∧
      (w.id ∈ c.p.properties → PropertyID.dupAllowed w.id t = true) ∧
      propertyDecodeType w.id c.p.properties (w.value ++ next.slice) = .ok (props, w.value.length) ∧
      next = ⟨⟨props, c.p.len + UInt32.ofNat w.bytes.length⟩,
        c.pLen - UInt32.ofNat w.bytes.length, next.slice, c.offset + w.bytes.length⟩ := by
  rcases header : uvarint c.slice with ⟨id, prefixLen⟩
  rw [decodeRound, header] at goes
  simp only at goes
  split at goes
  · simp at goes
  · rename_i more
    refine ⟨more, ?_⟩
    split at goes
    · simp at goes
    · rename_i present
      split at goes
      · simp at goes
      · rename_i allowed
        split at goes
        · simp at goes
        · rename_i repeated
          cases value : propertyDecodeType id c.p.properties (c.slice.drop prefixLen.toNat) with
          | error fault => simp [value] at goes
          | ok result =>
              rcases result with ⟨props, k⟩
              simp only [value, Sum.inr.injEq] at goes
              have bound := (uvarint_bound header (by omega)).2.2
              have within := propertyDecodeType_count value
              have idLength : (c.slice.take prefixLen.toNat).length = prefixLen.toNat :=
                List.length_take_of_le bound
              have valueLength : ((c.slice.drop prefixLen.toNat).take k).length = k :=
                List.length_take_of_le within
              have rest : next.slice = (c.slice.drop prefixLen.toNat).drop k := by
                rw [← goes, List.drop_drop]
              let w : WireProperty :=
                ⟨id, c.slice.take prefixLen.toNat, (c.slice.drop prefixLen.toNat).take k⟩
              have total : w.bytes.length = prefixLen.toNat + k := by
                rw [WireProperty.bytes, List.length_append, idLength, valueLength]
              refine ⟨w, props, ?_, ⟨isUvarint_take header (by omega), ?_, ?_⟩, ?_, ?_, ?_⟩
              · rw [rest, WireProperty.bytes, List.append_assoc, List.take_append_drop,
                  List.take_append_drop]
              · simpa using allowed
              · exact complete_of_propertyDecodeType value
              · intro held
                have found : (c.p.properties.lookup id).isSome := AList.lookup_isSome.mpr held
                simpa [found] using repeated
              · rw [rest, List.take_append_drop, value, valueLength]
              · rw [total, ← goes]

/-- Every round takes something off the slice, so the loop ends, with what the bounded one
returns. -/
theorem ends_decodeLoop {t : PacketType} {rounds : ℕ} {c : Cursor}
    (enough : c.slice.length < rounds) :
    Ends (decodeRound t) c (decodeLoop t rounds c.p c.pLen c.slice c.offset) := by
  induction rounds generalizing c with
  | zero => omega
  | succ rounds ih =>
      rw [decodeLoop_succ]
      cases round : decodeRound t c with
      | inl result => exact .leave round
      | inr next =>
          rcases decodeRound_eq_inr round with ⟨-, w, props, slice, wellFormed, -, -, -⟩
          have positive := List.length_pos_iff.mpr wellFormed.identifier.present
          refine .again round (ih ?_)
          rw [slice, WireProperty.bytes, List.length_append, List.length_append] at enough
          omega

/-- A round reads a well-formed property that may stand there. -/
theorem decodeRound_wire {t : PacketType} {p : Property} {w : WireProperty}
    (wellFormed : w.WellFormed t)
    (unseen : w.id ∈ p.properties → PropertyID.dupAllowed w.id t = true)
    (held : PairsHeld p.properties) {pLen : UInt32} (more : pLen ≠ 0) (rest : Bytes) (offset : ℕ) :
    ∃ val, decodeRound t ⟨p, pLen, w.bytes ++ rest, offset⟩ =
        .inr ⟨⟨p.properties.insert w.id val, p.len + UInt32.ofNat w.bytes.length⟩,
          pLen - UInt32.ofNat w.bytes.length, rest, offset + w.bytes.length⟩ ∧
      PairsHeld (p.properties.insert w.id val) := by
  rcases wellFormed.complete.decoded held rest with ⟨val, decoded, pairs⟩
  have positive := List.length_pos_iff.mpr wellFormed.identifier.present
  have header := wellFormed.identifier.append (w.value ++ rest)
  have notRepeated : ((p.properties.lookup w.id).isSome && !PropertyID.dupAllowed w.id t) = false := by
    cases look : p.properties.lookup w.id with
    | none => rfl
    | some old => simp [unseen (AList.lookup_isSome.mp (by simp [look]))]
  have behind : (w.identifier ++ (w.value ++ rest)).drop (w.identifier.length + w.value.length) =
      rest := by
    rw [← List.drop_drop, List.drop_left, List.drop_left]
  refine ⟨val, ?_, held.insert pairs⟩
  rw [decodeRound, if_neg more, WireProperty.bytes, List.append_assoc, header]
  simp only [wellFormed.allowed, notRepeated, Int.toNat_natCast, List.drop_left, decoded, behind,
    List.length_append]
  rw [if_neg (by omega)]
  simp

/-- What the loop accepts is a sequence of well-formed properties that takes as many bytes as it
counted down, up to multiples of `2 ^ 32`. -/
theorem properties_of_ends {t : PacketType} {c : Cursor}
    {result : Except (Fault PacketError) (Property × ℕ)} (ends : Ends (decodeRound t) c result)
    (held : PairsHeld c.p.properties) {done : Property} {n : ℕ} (accepted : result = .ok (done, n)) :
    ∃ properties rest, c.slice = propertiesBytes properties ++ rest ∧
      n = c.offset + (propertiesBytes properties).length ∧
      c.pLen = UInt32.ofNat (propertiesBytes properties).length ∧ WellFormedBlock t properties ∧
      ∀ w ∈ properties, w.id ∈ c.p.properties → PropertyID.dupAllowed w.id t = true := by
  induction ends with
  | @leave c result left =>
      subst accepted
      rcases decodeRound_eq_ok left with ⟨zero, -, stopped⟩
      exact ⟨[], c.slice, rfl, stopped, zero, ⟨by simp, .nil⟩, by simp⟩
  | @again c next result goes _ ih =>
      rcases decodeRound_eq_inr goes with ⟨-, w, props, slice, wellFormed, unseen, value, after⟩
      rcases wellFormed.complete.decoded held next.slice with ⟨val, decoded, pairs⟩
      rw [value, Except.ok.injEq, Prod.mk.injEq] at decoded
      have stored : next.p.properties = c.p.properties.insert w.id val := by
        rw [after]
        exact decoded.1
      rcases ih (by rw [stored]; exact held.insert pairs) accepted with
        ⟨properties, rest, nextSlice, total, counted, block, fresh⟩
      have offset : next.offset = c.offset + w.bytes.length := by rw [after]
      have pLen : next.pLen = c.pLen - UInt32.ofNat w.bytes.length := by rw [after]
      refine ⟨w :: properties, rest, ?_, ?_, ?_, ⟨?_, ?_⟩, ?_⟩
      · rw [slice, nextSlice, propertiesBytes_cons, List.append_assoc]
      · rw [total, offset, propertiesBytes_cons, List.length_append, Nat.add_assoc]
      · rw [propertiesBytes_cons, List.length_append, UInt32.ofNat_add, ← counted, pLen,
          UInt32.add_comm, UInt32.sub_add_cancel]
      · intro other member
        rcases List.mem_cons.mp member with rfl | later
        · exact wellFormed
        · exact block.each other later
      · refine List.pairwise_cons.mpr ⟨?_, block.repeats⟩
        intro later member same
        rw [same]
        refine fresh later member ?_
        rw [stored, ← same]
        exact (AList.mem_insert _).mpr (.inl rfl)
      · intro other member present
        rcases List.mem_cons.mp member with rfl | later
        · exact unseen present
        · refine fresh other later ?_
          rw [stored]
          exact (AList.mem_insert _).mpr (.inr present)

/-- The loop reads a sequence of well-formed properties to its end. -/
theorem ends_properties {t : PacketType} {properties : List WireProperty}
    (block : WellFormedBlock t properties)
    (short : (propertiesBytes properties).length < 2 ^ 32) (p : Property)
    (held : PairsHeld p.properties)
    (unseen : ∀ w ∈ properties, w.id ∈ p.properties → PropertyID.dupAllowed w.id t = true)
    (rest : Bytes) (offset : ℕ) :
    ∃ done, Ends (decodeRound t)
      ⟨p, UInt32.ofNat (propertiesBytes properties).length, propertiesBytes properties ++ rest, offset⟩
      (.ok (done, offset + (propertiesBytes properties).length)) := by
  induction properties generalizing p offset with
  | nil => exact ⟨p, .leave (by simp [decodeRound])⟩
  | cons w properties ih =>
      have wellFormed := block.each w (by simp)
      have positive := List.length_pos_iff.mpr wellFormed.identifier.present
      rw [propertiesBytes_cons, List.length_append] at short
      have more : UInt32.ofNat (w.bytes ++ propertiesBytes properties).length ≠ 0 := by
        rw [Ne, ← UInt32.toNat_inj, UInt32.toNat_ofNat', List.length_append, Nat.mod_eq_of_lt short,
          WireProperty.bytes, List.length_append, UInt32.toNat_zero]
        omega
      rcases decodeRound_wire wellFormed (unseen w (by simp)) held more
        (propertiesBytes properties ++ rest) offset with ⟨val, round, heldNext⟩
      have left : UInt32.ofNat (w.bytes ++ propertiesBytes properties).length -
          UInt32.ofNat w.bytes.length = UInt32.ofNat (propertiesBytes properties).length := by
        rw [List.length_append, UInt32.ofNat_add, UInt32.add_comm, UInt32.add_sub_cancel]
      rw [left] at round
      rcases ih block.tail (by omega)
        ⟨p.properties.insert w.id val, p.len + UInt32.ofNat w.bytes.length⟩ heldNext
        (block.unseen_insert unseen val) (offset + w.bytes.length) with ⟨done, ends⟩
      rw [Nat.add_assoc, ← List.length_append] at ends
      rw [propertiesBytes_cons, List.append_assoc]
      exact ⟨done, .again round ends⟩

/-- While the counter has not reached zero the loop goes on, also behind the end of the block. -/
theorem le_of_ends {t : PacketType} {properties : List WireProperty} {w : WireProperty}
    (block : WellFormedBlock t (properties ++ [w])) {p : Property} (held : PairsHeld p.properties)
    (unseen : ∀ other ∈ properties ++ [w], other.id ∈ p.properties →
      PropertyID.dupAllowed other.id t = true) {pLen : UInt32}
    (before : (propertiesBytes properties).length < pLen.toNat) {rest : Bytes} {offset : ℕ}
    {done : Property} {n : ℕ}
    (ends : Ends (decodeRound t) ⟨p, pLen, propertiesBytes (properties ++ [w]) ++ rest, offset⟩
      (.ok (done, n))) : offset + (propertiesBytes (properties ++ [w])).length ≤ n := by
  induction properties generalizing p pLen offset with
  | nil =>
      have more : pLen ≠ 0 := by
        rintro rfl
        simp at before
      rw [List.nil_append, propertiesBytes_cons, List.append_assoc] at ends
      rcases decodeRound_wire (block.each w (by simp)) (unseen w (by simp)) held more
        (propertiesBytes [] ++ rest) offset with ⟨val, round, heldNext⟩
      rcases properties_of_ends (ends.next round) heldNext rfl with ⟨behind, -, -, total, -⟩
      rw [List.nil_append, propertiesBytes_cons, List.length_append, total]
      simp
  | cons first properties ih =>
      rw [List.cons_append] at block unseen
      rw [propertiesBytes_cons, List.length_append] at before
      have more : pLen ≠ 0 := by
        rintro rfl
        simp at before
      rw [List.cons_append, propertiesBytes_cons, List.append_assoc] at ends
      rcases decodeRound_wire (block.each first (by simp)) (unseen first (by simp)) held more
        (propertiesBytes (properties ++ [w]) ++ rest) offset with ⟨val, round, heldNext⟩
      have counted : (pLen - UInt32.ofNat first.bytes.length).toNat =
          pLen.toNat - first.bytes.length := by
        have small := pLen.toNat_lt
        have same : (UInt32.ofNat first.bytes.length).toNat = first.bytes.length := by
          rw [UInt32.toNat_ofNat', Nat.mod_eq_of_lt (by omega)]
        rw [UInt32.toNat_sub_of_le _ _ (UInt32.le_iff_toNat_le.mpr (by omega)), same]
      have later := ih block.tail heldNext (block.unseen_insert unseen val) (by omega)
        (ends.next round)
      rw [List.cons_append, propertiesBytes_cons, List.length_append]
      omega

theorem returns_decode (t : PacketType) (src : Bytes) :
    Returns t src (Property.empty.decode t src) := by
  rcases header : uvarint src with ⟨pLen, lCount⟩
  simp only [Returns, decode, header]
  split
  · rfl
  · refine @ends_decodeLoop t _ ⟨.empty, pLen, src.drop lCount.toNat, lCount.toNat⟩ ?_
    rw [List.length_drop]
    omega

/-- Behind a length field, what is returned is what the loop ends with. -/
theorem Returns.ends {t : PacketType} {lengthField body : Bytes} {L : UInt32}
    (integer : IsUvarint lengthField L) {result : Except (Fault PacketError) (Property × ℕ)}
    (returns : Returns t (lengthField ++ body) result) :
    Ends (decodeRound t) ⟨.empty, L, body, lengthField.length⟩ result := by
  have positive := List.length_pos_iff.mpr integer.present
  rw [Returns, integer.append body, if_neg (by simp only; omega)] at returns
  simpa only [Int.toNat_natCast, List.drop_left] using returns

theorem startsWithBlock_of_decode {t : PacketType} {src : Bytes} (short : src.length < 2 ^ 32)
    {done : Property} {n : ℕ} (run : Property.empty.decode t src = .ok (done, n)) :
    StartsWithBlock t src n := by
  have returns := returns_decode t src
  rcases header : uvarint src with ⟨L, lCount⟩
  rw [run, Returns, header] at returns
  simp only at returns
  split at returns
  · simp [malformed] at returns
  · rename_i present
    have bound := (uvarint_bound header (by omega)).2.2
    have width : (src.take lCount.toNat).length = lCount.toNat := List.length_take_of_le bound
    rcases properties_of_ends returns (by simp [PairsHeld, empty]) rfl with
      ⟨properties, rest, slice, total, counted, block, -⟩
    simp only at slice total counted
    -- the counter has not wrapped: there are not enough bytes
    have few : (propertiesBytes properties).length < 2 ^ 32 := by
      have most := congrArg List.length slice
      rw [List.length_append, List.length_drop] at most
      omega
    have exact : (propertiesBytes properties).length = L.toNat := by
      rw [counted, UInt32.toNat_ofNat', Nat.mod_eq_of_lt few]
    refine ⟨src.take lCount.toNat, rest, L, properties, isUvarint_take header (by omega), ?_, exact,
      block, ?_⟩
    · rw [← slice, List.take_append_drop]
    · rw [width, total, exact]

/-- For bytes shorter than `2 ^ 32`, `property.decode` returns; it succeeds exactly on those that
start with a block of the grammar, and has then consumed the block; and a block whose last property
runs past the announced length is refused. -/
theorem decode_grammar (t : PacketType) {src : Bytes} (short : src.length < 2 ^ 32) :
    Returns t src (Property.empty.decode t src) ∧
      (∀ n, (∃ done, Property.empty.decode t src = .ok (done, n)) ↔ StartsWithBlock t src n) ∧
      ∀ lengthField L properties w rest, IsUvarint lengthField L →
        src = lengthField ++ (propertiesBytes (properties ++ [w]) ++ rest) →
        WellFormedBlock t (properties ++ [w]) → (propertiesBytes properties).length < L.toNat →
        L.toNat < (propertiesBytes (properties ++ [w])).length →
        ∀ done n, Property.empty.decode t src ≠ .ok (done, n) := by
  have returns := returns_decode t src
  have blank : PairsHeld Property.empty.properties := by simp [PairsHeld, empty]
  refine ⟨returns, fun n => ⟨?_, ?_⟩, ?_⟩
  · rintro ⟨done, run⟩
    exact startsWithBlock_of_decode short run
  · rintro ⟨lengthField, rest, L, properties, integer, rfl, total, block, rfl⟩
    rcases ends_properties block (by rw [total]; exact L.toNat_lt) .empty blank
      (by simp [empty]) rest lengthField.length with ⟨done, ends⟩
    rw [total, UInt32.ofNat_toNat] at ends
    exact ⟨done, (returns.ends integer).unique ends⟩
  · rintro lengthField L properties w rest integer rfl block before past done n run
    rw [run] at returns
    have further := le_of_ends block blank (by simp [empty]) before (returns.ends integer)
    rcases startsWithBlock_of_decode short run with
      ⟨other, back, announced, found, also, same, -, -, consumed⟩
    have first := integer.append (propertiesBytes (properties ++ [w]) ++ rest)
    rw [same, also.append, Prod.mk.injEq] at first
    rcases first with ⟨rfl, width⟩
    omega

/-- A block with a topic alias, and one byte of payload behind it. -/
def sampleBlock : Bytes := [3, 0x23, 0, 5, 0xFF]

theorem sampleBlock_grammar :
    sampleBlock.length < 2 ^ 32 ∧ StartsWithBlock .PUBLISH sampleBlock 4 ∧
      ¬StartsWithBlock .CONNACK sampleBlock 4 := by
  have short : sampleBlock.length < 2 ^ 32 := by decide
  refine ⟨short, ((decode_grammar .PUBLISH short).2.1 4).mp ⟨_, rfl⟩, fun starts => ?_⟩
  rcases ((decode_grammar .CONNACK short).2.1 4).mpr starts with ⟨done, run⟩
  have refused : Property.empty.decode .CONNACK sampleBlock = malformed := rfl
  rw [refused] at run
  cases run

end Property

end VolantMQ.Packet
