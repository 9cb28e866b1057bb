import VolantMQ.Lib.Reader
import VolantMQ.Packet.Publish

/-!
# Readers for the fields of a packet

The message decoders of the package receive everything that follows the fixed header, also when
that is more than one packet. Their building blocks are given here as readers: length-prefixed
fields, variable-length integers, packet identifiers and property blocks. For each of them the
condition `inside` says that the field ends within the slice.
-/

namespace VolantMQ.Packet

open Lib

/-- Refuse the packet. -/
def reject {α : Type} (reason : PacketError) : Reader PacketError α := .fail (.error reason)

theorem readLPBytes_append {src field : Bytes} {n : ℕ} (read : readLPBytes src = .ok (field, n))
    (more : Bytes) : readLPBytes (src ++ more) = .ok (field, n) := by
  rcases src with _ | ⟨high, _ | ⟨low, body⟩⟩
  · simp [readLPBytes] at read
  · simp [readLPBytes] at read
  · simp only [readLPBytes] at read
    split at read
    · simp at read
    · rename_i enough
      have longer : ¬(body ++ more).length < (uint16 high low).toNat := by
        rw [List.length_append]
        omega
      simp only [List.cons_append, readLPBytes, if_neg longer, ← read]
      rw [List.take_append_of_le_length (by omega)]

/-- `ReadLPBytes` -/
def lpField : Reader PacketError Bytes where
  run := readLPBytes
  inside src := ∃ field n, readLPBytes src = .ok (field, n)
  bounded read := (readLPBytes_eq_ok read).2.2
  stable := by
    rintro src ⟨field, n, read⟩ more
    rw [readLPBytes_append read more, read]

/-- The length of a length-prefixed field, as its first two bytes announce it. -/
def lpLength : Bytes → ℕ
  | high :: low :: _ => 2 + (uint16 high low).toNat
  | _ => 0

theorem lpField_consumes {src field : Bytes} {n : ℕ} (run : lpField.run src = .ok (field, n)) :
    n = lpLength src := by
  rcases src with _ | ⟨high, _ | ⟨low, body⟩⟩
  · simp [lpField, readLPBytes] at run
  · simp [lpField, readLPBytes] at run
  · simp only [lpField, readLPBytes] at run
    split at run
    · simp at run
    · simp only [Except.ok.injEq, Prod.mk.injEq] at run
      exact run.2.symm

theorem reads_lpField {field : Bytes} (fits : field.length ≤ MaxLPString) :
    Reads lpField (lpBytes field) field := by
  intro rest
  rw [length_lpBytes]
  exact readLPBytes_lpBytes fits rest

theorem honest_lpField : Reader.Honest lpField := fun _ field n read => ⟨field, n, read⟩

theorem uvarintLoop_append {src : Bytes} {i : ℕ} {x : UInt32} {s : ℕ}
    (ends : (uvarintLoop src i x s).2 ≠ 0) (more : Bytes) :
    uvarintLoop (src ++ more) i x s = uvarintLoop src i x s := by
  induction src generalizing i x s with
  | nil => simp [uvarintLoop] at ends
  | cons byte rest ih =>
      simp only [uvarintLoop, List.cons_append] at ends ⊢
      split
      · rfl
      · rename_i further
        rw [if_neg further] at ends
        exact ih ends

theorem uvarintLoop_count {src : Bytes} {i : ℕ} {x : UInt32} {s : ℕ} :
    (uvarintLoop src i x s).2 ≤ i + src.length := by
  induction src generalizing i x s with
  | nil =>
      simp only [uvarintLoop, List.length_nil]
      omega
  | cons byte rest ih =>
      simp only [uvarintLoop, List.length_cons]
      split
      · split
        · simp only
          omega
        · simp only
          omega
      · have := @ih (i + 1) (x ||| shl32 (byte &&& 0x7f) s) (s + 7)
        omega

theorem uvarint_count (src : Bytes) : (uvarint src).2.toNat ≤ src.length := by
  have count := @uvarintLoop_count src 0 0 0
  simp only [uvarint]
  omega

/-- `uvarint`: the value and the number of bytes, which is not positive on error. -/
def uvarintField : Reader PacketError (UInt32 × Int) where
  run src := .ok (uvarint src, (uvarint src).2.toNat)
  inside src := (uvarint src).2 ≠ 0
  bounded := by
    intro src value n run
    simp only [Except.ok.injEq, Prod.mk.injEq] at run
    exact run.2 ▸ uvarint_count src
  stable := by
    intro src ends more
    have same : uvarint (src ++ more) = uvarint src := uvarintLoop_append ends more
    simp only [same]

/-- `header.decodePacketID` -/
def packetIDField : Reader PacketError IDType where
  run src := .ok (Publish.decodePacketID src)
  inside src := 2 ≤ src.length
  bounded := by
    intro src value n run
    rcases src with _ | ⟨high, _ | ⟨low, rest⟩⟩ <;>
      simp only [Publish.decodePacketID, Except.ok.injEq, Prod.mk.injEq] at run <;>
      simp only [List.length_cons, List.length_nil] <;> omega
  stable := by
    intro src enough more
    rcases src with _ | ⟨high, _ | ⟨low, rest⟩⟩
    · simp at enough
    · simp at enough
    · rfl

theorem reads_packetIDField (id : IDType) : Reads packetIDField (putUint16 id) id := by
  intro rest
  have read := uint16_putUint16 id
  simp only [putUint16, List.cons_append, List.nil_append] at read ⊢
  change Except.ok (Publish.decodePacketID (_ :: _ :: rest)) = _
  simp only [Publish.decodePacketID, read]
  rfl

@[simp]
theorem run_packetIDField_cons (high low : UInt8) (rest : Bytes) :
    packetIDField.run (high :: low :: rest) = .ok (uint16 high low, 2) := rfl

theorem packetIDField_consumes {src : Bytes} {id : IDType} {n : ℕ}
    (run : packetIDField.run src = .ok (id, n)) : n = min 2 src.length := by
  rcases src with _ | ⟨high, _ | ⟨low, rest⟩⟩ <;>
    simp only [packetIDField, Publish.decodePacketID, Except.ok.injEq, Prod.mk.injEq] at run <;>
    simp only [List.length_cons, List.length_nil] <;> omega

/-- `binary.BigEndian.Uint16` -/
def uint16Field : Reader PacketError UInt16 where
  run
    | high :: low :: _ => .ok (uint16 high low, 2)
    | _ => .error .panic
  inside src := 2 ≤ src.length
  bounded := by
    intro src value n run
    rcases src with _ | ⟨high, _ | ⟨low, rest⟩⟩
    · simp at run
    · simp at run
    · simp only [Except.ok.injEq, Prod.mk.injEq] at run
      simp only [List.length_cons]
      omega
  stable := by
    intro src enough more
    rcases src with _ | ⟨high, _ | ⟨low, rest⟩⟩
    · simp at enough
    · simp at enough
    · rfl

theorem uint16Field_consumes {src : Bytes} {value : UInt16} {n : ℕ}
    (run : uint16Field.run src = .ok (value, n)) : n = 2 := by
  rcases src with _ | ⟨high, _ | ⟨low, rest⟩⟩ <;>
    simp only [uint16Field, reduceCtorEq, Except.ok.injEq, Prod.mk.injEq] at run
  exact run.2.symm

theorem honest_uint16Field : Reader.Honest uint16Field := by
  rintro (_ | ⟨high, _ | ⟨low, rest⟩⟩) value n run
  · simp [uint16Field] at run
  · simp [uint16Field] at run
  · simp [uint16Field]

theorem reads_uint16Field (value : UInt16) : Reads uint16Field (putUint16 value) value := by
  intro rest
  have read := uint16_putUint16 value
  simp only [putUint16, List.cons_append, List.nil_append] at read ⊢
  change Except.ok (uint16 _ _, 2) = _
  rw [read]
  rfl

/-- The value of a property ends within the slice. -/
def valueInside (type : PropertyType) (src : Bytes) : Prop :=
  match type with
  | .byte => 1 ≤ src.length
  | .short => 2 ≤ src.length
  | .int => 4 ≤ src.length
  | .varInt => (uvarint src).2 ≠ 0
  | .string | .binary => lpField.inside src
  | .stringPair => ∃ key n, readLPBytes src = .ok (key, n) ∧
      (utf8Valid key = true → lpField.inside (src.drop n))

theorem propertyDecodeType_count {props next : PropertyMap} {id : PropertyID} {src : Bytes} {k : ℕ}
    (run : propertyDecodeType id props src = .ok (next, k)) : k ≤ src.length := by
  rcases exists_decodedAs run with ⟨val, -, decoded⟩
  generalize propertyTypeMap id = type at decoded
  cases decoded with
  | byte value rest => simp
  | short high low rest => simp
  | int b3 b2 b1 b0 rest => simp
  | varInt read positive =>
      have within := uvarint_count src
      rw [read] at within
      exact within
  | string read valid => exact (readLPBytes_eq_ok read).2.2
  | binary read => exact (readLPBytes_eq_ok read).2.2
  | stringPair readKey keyValid read valid before =>
      have keyBound := (readLPBytes_eq_ok readKey).2.2
      have bound := (readLPBytes_eq_ok read).2.2
      rw [List.length_drop] at bound
      omega

theorem propertyDecodeType_append {props : PropertyMap} {id : PropertyID} {src : Bytes}
    (within : valueInside (propertyTypeMap id) src) (more : Bytes) :
    propertyDecodeType id props (src ++ more) = propertyDecodeType id props src := by
  unfold propertyDecodeType
  generalize propertyTypeMap id = type at within
  cases type with
  | byte =>
      rcases src with _ | ⟨b, rest⟩
      · simp [valueInside] at within
      · rfl
  | short =>
      rcases src with _ | ⟨b, _ | ⟨c, rest⟩⟩
      · simp [valueInside] at within
      · simp [valueInside] at within
      · rfl
  | int =>
      rcases src with _ | ⟨b, _ | ⟨c, _ | ⟨d, _ | ⟨e, rest⟩⟩⟩⟩
      · simp [valueInside] at within
      · simp [valueInside] at within
      · simp [valueInside] at within
      · simp [valueInside] at within
      · rfl
  | varInt =>
      have same : uvarint (src ++ more) = uvarint src := uvarintLoop_append within more
      simp only [decodeVarInt, same]
  | string =>
      rcases within with ⟨field, n, read⟩
      simp only [decodeString, read, readLPBytes_append read more]
  | binary =>
      rcases within with ⟨field, n, read⟩
      simp only [decodeBinary, read, readLPBytes_append read more]
  | stringPair =>
      rcases within with ⟨key, n, read, second⟩
      have dropped : (src ++ more).drop n = src.drop n ++ more :=
        List.drop_append_of_le_length (readLPBytes_eq_ok read).2.2
      simp only [decodeStringPair, read, readLPBytes_append read more, dropped]
      cases valid : utf8Valid key with
      | false => rfl
      | true =>
          rcases second valid with ⟨field, m, readVal⟩
          simp only [readVal, readLPBytes_append readVal more]

/-- `propertyDecodeType[propertyTypeMap[id]]` -/
def valueField (id : PropertyID) (props : PropertyMap) : Reader PacketError PropertyMap where
  run := propertyDecodeType id props
  inside := valueInside (propertyTypeMap id)
  bounded := propertyDecodeType_count
  stable := propertyDecodeType_append

theorem honest_valueField (id : PropertyID) (props : PropertyMap) :
    Reader.Honest (valueField id props) := by
  intro src next k run
  change valueInside (propertyTypeMap id) src
  rcases exists_decodedAs run with ⟨val, -, decoded⟩
  generalize propertyTypeMap id = type at decoded
  cases decoded with
  | byte value rest => simp [valueInside]
  | short high low rest => simp [valueInside]
  | int b3 b2 b1 b0 rest => simp [valueInside]
  | varInt read positive =>
      change (uvarint src).2 ≠ 0
      rw [read]
      exact positive.ne'
  | string read valid => exact ⟨_, _, read⟩
  | binary read => exact ⟨_, _, read⟩
  | stringPair readKey keyValid read valid before =>
      exact ⟨_, _, readKey, fun _ => ⟨_, _, read⟩⟩

/-- The loop of `property.decode`. The map of a packet that was made for an older version is nil:
it reads as empty, and storing into it is out of range. -/
def blockLoop (made : Bool) (t : PacketType) : ℕ → Property → UInt32 → Reader PacketError Property
  | 0, _, _ => reject (.reason CodeMalformedPacket)
  | rounds + 1, p, pLen =>
      if pLen = 0 then pure p
      else do
        let (id, prefixLen) ← uvarintField
        if prefixLen ≤ 0 then reject (.reason CodeMalformedPacket)
        else if !PropertyID.isValidPacketType id t then reject (.reason CodeMalformedPacket)
        else if (p.properties.lookup id).isSome && !PropertyID.dupAllowed id t then
          reject (.reason CodeProtocolError)
        else do
          let (props, decodeCount) ← (valueField id p.properties).counted
          let count := prefixLen.toNat + decodeCount
          if !made then .fail .panic
          else blockLoop made t rounds ⟨props, p.len + UInt32.ofNat count⟩ (pLen - UInt32.ofNat count)

/-- `property.decode` with a bound on the number of properties. -/
def blockWithin (rounds : ℕ) (made : Bool) (t : PacketType) : Reader PacketError Property := do
  let (pLen, lCount) ← uvarintField
  if lCount ≤ 0 then reject (.reason CodeMalformedPacket)
  else blockLoop made t rounds .empty pLen

/-- Rounds beyond the number of bytes make no difference, as each round consumes some. -/
theorem blockLoop_rounds (made : Bool) (t : PacketType) {src : Bytes} {rounds other : ℕ}
    (enough : src.length < rounds) (also : src.length < other) (p : Property) (pLen : UInt32) :
    (blockLoop made t rounds p pLen).run src = (blockLoop made t other p pLen).run src ∧
      ((blockLoop made t rounds p pLen).inside src ↔
        (blockLoop made t other p pLen).inside src) := by
  induction rounds generalizing src other p pLen with
  | zero => omega
  | succ rounds ih =>
      cases other with
      | zero => omega
      | succ other =>
          simp only [blockLoop]
          split
          · exact ⟨rfl, Iff.rfl⟩
          · refine Reader.bind_congr ?_
            rintro ⟨id, prefixLen⟩ n header
            simp only [uvarintField, Except.ok.injEq, Prod.mk.injEq] at header
            simp only
            split
            · exact ⟨rfl, Iff.rfl⟩
            · rename_i positive
              split
              · exact ⟨rfl, Iff.rfl⟩
              · split
                · exact ⟨rfl, Iff.rfl⟩
                · refine Reader.bind_congr ?_
                  rintro ⟨props, count⟩ m value
                  have bound := (valueField id p.properties).counted.bounded value
                  have consumed : 0 < n := by
                    rw [← header.2, header.1]
                    simp only
                    omega
                  have within : n ≤ src.length := by
                    have all := @uvarintLoop_count src 0 0 0
                    rw [← header.2]
                    simp only [uvarint]
                    omega
                  have shorter : ((src.drop n).drop m).length < rounds := by
                    simp only [List.length_drop]
                    omega
                  have alsoShorter : ((src.drop n).drop m).length < other := by
                    simp only [List.length_drop]
                    omega
                  simp only
                  split
                  · exact ⟨rfl, Iff.rfl⟩
                  · exact ih shorter alsoShorter _ _

theorem blockWithin_rounds (made : Bool) (t : PacketType) {src : Bytes} {rounds other : ℕ}
    (enough : src.length < rounds) (also : src.length < other) :
    (blockWithin rounds made t).run src = (blockWithin other made t).run src ∧
      ((blockWithin rounds made t).inside src ↔ (blockWithin other made t).inside src) := by
  refine Reader.bind_congr ?_
  rintro ⟨pLen, lCount⟩ n header
  simp only
  split
  · exact ⟨rfl, Iff.rfl⟩
  · exact blockLoop_rounds made t (by rw [List.length_drop]; omega)
      (by rw [List.length_drop]; omega) _ _

/-- `property.decode` -/
def block (made : Bool) (t : PacketType) : Reader PacketError Property where
  run src := (blockWithin (src.length + 1) made t).run src
  inside src := (blockWithin (src.length + 1) made t).inside src
  bounded run := (blockWithin _ made t).bounded run
  stable := by
    intro src within more
    have rounds : (blockWithin ((src ++ more).length + 1) made t).run src =
          (blockWithin (src.length + 1) made t).run src ∧
        ((blockWithin ((src ++ more).length + 1) made t).inside src ↔
          (blockWithin (src.length + 1) made t).inside src) :=
      blockWithin_rounds made t (by rw [List.length_append]; omega) (by omega)
    rw [(blockWithin _ made t).stable (rounds.2.mpr within) more, rounds.1]

/-- A length or an identifier that is cut off is refused. -/
theorem honest_uvarint_bind {α : Type} {next : UInt32 × Int → Reader PacketError α}
    (second : ∀ value, Reader.Honest (next value))
    (refused : ∀ value rest result, value.2 = 0 → (next value).run rest ≠ .ok result) :
    Reader.Honest (uvarintField >>= next) := by
  refine Reader.Honest.bind_or ?_ second
  intro src value n run
  change Except.ok (uvarint src, _) = _ at run
  simp only [Except.ok.injEq, Prod.mk.injEq] at run
  by_cases cut : (uvarint src).2 = 0
  · exact .inr fun result => refused value _ result (run.1 ▸ cut)
  · exact .inl cut

theorem honest_blockLoop (made : Bool) (t : PacketType) (rounds : ℕ) (p : Property)
    (pLen : UInt32) : Reader.Honest (blockLoop made t rounds p pLen) := by
  induction rounds generalizing p pLen with
  | zero => exact Reader.honest_fail _
  | succ rounds ih =>
      refine Reader.Honest.ite (Reader.honest_pure p) ?_
      refine honest_uvarint_bind ?_ ?_
      · rintro ⟨id, prefixLen⟩
        refine Reader.Honest.ite (Reader.honest_fail _) (Reader.Honest.ite (Reader.honest_fail _)
          (Reader.Honest.ite (Reader.honest_fail _) ?_))
        refine Reader.Honest.bind (honest_valueField id p.properties).counted ?_
        rintro ⟨props, decodeCount⟩
        exact Reader.Honest.ite (Reader.honest_fail _) (ih _ _)
      · rintro ⟨id, prefixLen⟩ rest result cut
        simp only at cut
        simp [cut, reject]

theorem honest_block (made : Bool) (t : PacketType) : Reader.Honest (block made t) := by
  intro src p n run
  have within : Reader.Honest (blockWithin (src.length + 1) made t) := by
    refine honest_uvarint_bind ?_ ?_
    · rintro ⟨pLen, lCount⟩
      exact Reader.Honest.ite (Reader.honest_fail _) (honest_blockLoop made t _ _ _)
    · rintro ⟨pLen, lCount⟩ rest result cut
      simp only at cut
      simp [cut, reject]
  exact within src p n run

/-- The length of a property block, as its length field announces it. -/
def blockLength (src : Bytes) : ℕ := (uvarint src).2.toNat + (uvarint src).1.toNat

/-- The loop stops when it has consumed what it was told to, up to the width of its counter. -/
theorem blockLoop_consumes {made : Bool} {t : PacketType} {rounds : ℕ} {p done : Property}
    {pLen : UInt32} {src : Bytes} {n : ℕ}
    (run : (blockLoop made t rounds p pLen).run src = .ok (done, n)) : UInt32.ofNat n = pLen := by
  induction rounds generalizing p pLen src n with
  | zero => simp [blockLoop, reject] at run
  | succ rounds ih =>
      simp only [blockLoop] at run
      split at run
      · rename_i finished
        simp only [Reader.run_pure, Except.ok.injEq, Prod.mk.injEq] at run
        rw [← run.2, finished]
        rfl
      · rcases Reader.run_bind_eq_ok.mp run with ⟨⟨id, prefixLen⟩, a, b, header, rest, rfl⟩
        have count : a = prefixLen.toNat := by
          change Except.ok (uvarint src, _) = _ at header
          simp only [Except.ok.injEq, Prod.mk.injEq] at header
          rw [← header.2, header.1]
        simp only at rest
        split at rest
        · simp [reject] at rest
        · split at rest
          · simp [reject] at rest
          · split at rest
            · simp [reject] at rest
            · rcases Reader.run_bind_eq_ok.mp rest with ⟨⟨props, c⟩, c', d, value, next, rfl⟩
              have same := (Reader.run_counted_eq_ok.mp value).2
              simp only at next
              split at next
              · simp at next
              · have tail := ih next
                rw [← Nat.add_assoc, count, ← same, UInt32.ofNat_add, tail, UInt32.add_comm,
                  UInt32.sub_add_cancel]

/-- A block ends where its length field says. -/
theorem block_consumes {made : Bool} {t : PacketType} {p : Property} {src : Bytes} {n : ℕ}
    (short : src.length < 2 ^ 32) (run : (block made t).run src = .ok (p, n)) :
    n = blockLength src := by
  have bound := (block made t).bounded run
  change (blockWithin (src.length + 1) made t).run src = _ at run
  rcases Reader.run_bind_eq_ok.mp run with ⟨⟨pLen, lCount⟩, a, b, header, rest, rfl⟩
  change Except.ok (uvarint src, _) = _ at header
  simp only [Except.ok.injEq, Prod.mk.injEq] at header
  simp only at rest
  split at rest
  · simp [reject] at rest
  · have tail := congrArg UInt32.toNat (blockLoop_consumes rest)
    rw [UInt32.toNat_ofNat', Nat.mod_eq_of_lt (by omega)] at tail
    rw [blockLength, header.1, ← header.2, header.1, tail]

theorem run_blockLoop (t : PacketType) (rounds : ℕ) (p : Property) (pLen : UInt32) (src : Bytes)
    (offset : ℕ) : Property.decodeLoop t rounds p pLen src offset =
      ((blockLoop true t rounds p pLen).run src).map fun (done, n) => (done, offset + n) := by
  induction rounds generalizing p pLen src offset with
  | zero => rfl
  | succ rounds ih =>
      simp only [Property.decodeLoop, blockLoop]
      split
      · rfl
      · have header : uvarintField.run src = .ok (uvarint src, (uvarint src).2.toNat) := rfl
        rw [Reader.run_bind_of_ok header]
        rcases uvarint src with ⟨id, prefixLen⟩
        simp only
        split
        · rfl
        · split
          · rfl
          · split
            · rfl
            · cases value : propertyDecodeType id p.properties (src.drop prefixLen.toNat) with
              | error fault =>
                  have failed : (valueField id p.properties).counted.run
                      (src.drop prefixLen.toNat) = .error fault := by
                    change ((propertyDecodeType id p.properties _).map _) = _
                    rw [value]
                    rfl
                  rw [Reader.run_bind_of_error failed]
                  rfl
              | ok result =>
                  rcases result with ⟨props, count⟩
                  have found : (valueField id p.properties).counted.run
                      (src.drop prefixLen.toNat) = .ok ((props, count), count) :=
                    Reader.run_counted_eq_ok.mpr ⟨value, rfl⟩
                  rw [Reader.run_bind_of_ok found]
                  simp only [Bool.not_true, Bool.false_eq_true, if_false, List.drop_drop]
                  rw [ih]
                  cases (blockLoop true t rounds _ _).run _ with
                  | error fault => rfl
                  | ok result =>
                      simp only [Except.map, Except.ok.injEq, Prod.mk.injEq, true_and]
                      omega

/-- For a packet with a map, the reader is the decoder of the property block. -/
theorem run_block (t : PacketType) (src : Bytes) :
    (block true t).run src = Property.empty.decode t src := by
  have header : uvarintField.run src = .ok (uvarint src, (uvarint src).2.toNat) := rfl
  change (blockWithin (src.length + 1) true t).run src = _
  simp only [blockWithin, Property.decode]
  rw [Reader.run_bind_of_ok header]
  rcases uvarint src with ⟨pLen, lCount⟩
  simp only
  split
  · rfl
  · rw [run_blockLoop]

end VolantMQ.Packet
