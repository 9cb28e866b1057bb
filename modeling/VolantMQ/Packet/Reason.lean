import VolantMQ.Packet.Construct
import VolantMQ.Packet.Overwrite
import VolantMQ.Packet.Request

/-!
# Reason codes and properties

The acknowledgements of a PUBLISH and DISCONNECT have in V5.0 a reason code and properties, of
which their encoders leave out what says nothing. The decoder of an acknowledgement finds out from
the slice what was left out; that of a DISCONNECT goes by the remaining length, and refuses a reason
code without properties. An AUTH packet has a reason code and properties as well, but in `auth.go`
they are written to and read from the same place.
-/

namespace VolantMQ.Packet

open Lib

/-- The parts of an encoded packet that was decoded to its last byte. -/
theorem Message.run_of_decode {v : ProtocolVersion} {order : MapOrder PropertyEntry}
    {m made again : Message} {buf : Bytes} (encoded : m.encode order = .ok buf)
    (created : newMessage v m.mType = .ok made) (small : m.mFlags.toNat < 16)
    (accepted : flagsRejected m.mType m.mFlags = false)
    (decoded : decode v buf = .ok (again, buf.length)) :
    ∃ body count, m.size % 2 ^ 32 ≤ 268435455 ∧
      m.encodeMessage order (List.replicate m.size 0) = .ok (body, count) ∧ body.length = m.size ∧
      (decodeMessage v m.mType m.mFlags (m.size % 2 ^ 32 : ℕ)).run body = .ok (again, m.size) := by
  rcases encode_eq_ok encoded with ⟨remLen, body, count, remaining, written, rfl⟩
  have bound := remainingLength_eq_ok remaining
  have length := grows_encodeMessage.steady _ _ _ written
  rw [List.length_replicate] at length
  have within : remLen ≤ body.length := by
    rw [length, bound.2]
    exact Nat.mod_le _ _
  rcases @decode_announced v m.firstByte body remLen bound.1 within with
    ⟨f, first, field, bodyLength, run⟩
  have fields := firstByte_fields m.mType small
  have type : f.mType = m.mType := by
    rw [Frame.mType, first]
    exact fields.1
  have flagBits : f.mFlags = m.mFlags := by
    rw [Frame.mFlags, first]
    exact fields.2
  rw [decoded] at run
  rcases Frame.settle_eq_ok.mp run.symm with ⟨k, found, consumed⟩
  rw [field, List.length_cons, List.length_append] at consumed
  simp only [Frame.reader, type, flagBits, created, accepted, Bool.false_eq_true, if_false,
    bodyLength] at found
  rw [bound.2] at found
  refine ⟨body, count, bound.2 ▸ bound.1, written, length, ?_⟩
  rw [found, show k = m.size by omega]

/-- Calls of `property.Set` on a packet, each for a property of its own, with a value of its type. -/
structure Settings (t : PacketType) where
  entries : List PropertyEntry
  once : entries.NodupKeys
  allowed : ∀ entry ∈ entries, PropertyID.isValidPacketType entry.1 t = true
  typed : ∀ entry ∈ entries, Canonical (propertyTypeMap entry.1) entry.2

namespace Settings

variable {t : PacketType} (s : Settings t)

def none (t : PacketType) : Settings t := ⟨[], List.nodupKeys_nil, by simp, by simp⟩

/-- The calls, one after the other. -/
def apply (p : Property) (entries : List PropertyEntry) : Except PacketError Property :=
  entries.foldlM (fun p entry => p.set t entry.1 entry.2) p

/-- The properties of a new packet after the calls. -/
def properties : Except PacketError Property := @apply t .empty s.entries

/-- What is written behind the packet identifier: nothing at all, the reason code alone, or both the
reason code and the properties with their length. -/
def reasonLength (reasonCode : ReasonCode) : ℕ :=
  if s.entries = [] then if reasonCode = CodeSuccess then 0 else 1
  else 1 + (putUvarint (weight s.entries)).length + weight s.entries

theorem apply_built {p : Property} {before entries : List PropertyEntry}
    (built : p.Built before) (once : (before ++ entries).NodupKeys)
    (allowed : ∀ entry ∈ entries, PropertyID.isValidPacketType entry.1 t = true) :
    ∃ q, @apply t p entries = .ok q ∧ q.Built (before ++ entries) := by
  induction entries generalizing p before with
  | nil => exact ⟨p, rfl, by simpa using built⟩
  | cons entry entries ih =>
      have fresh : ∀ other ∈ before, other.1 ≠ entry.1 := by
        intro other member
        have apart := List.pairwise_append.mp (List.nodupKeys_iff_pairwise.mp once)
        exact apart.2.2 other member entry (by simp)
      rcases built.set (allowed entry (by simp)) entry.2 fresh with ⟨next, run, builtNext⟩
      rw [List.append_cons] at once ⊢
      rcases ih builtNext once (fun other member => allowed other (by simp [member])) with
        ⟨q, rest, builtAll⟩
      refine ⟨q, ?_, builtAll⟩
      rw [apply, List.foldlM_cons, run]
      exact rest

/-- The calls succeed, and the block counts every property once. -/
theorem properties_built : ∃ p, s.properties = .ok p ∧ p.Built s.entries :=
  apply_built Property.built_empty s.once s.allowed

theorem weight_pos (some : s.entries ≠ []) : 0 < weight s.entries := by
  have typed := s.typed
  cases entries : s.entries with
  | nil => exact absurd entries some
  | cons entry rest =>
      rw [entries] at typed
      rw [weight_cons]
      exact Nat.add_pos_left (typed entry (by simp)).positive _

variable {s}

theorem get_built {p : Property} (built : p.Built s.entries) (id : PropertyID) :
    p.get id = s.entries.dlookup id :=
  List.perm_dlookup id p.properties.nodupKeys built.held

section Counted

variable {p : Property} (built : p.Built s.entries) (length : p.len.toNat = weight s.entries)
  (full : p.fullLen.toNat = weight s.entries + uvarintCalc p.len)

include built full in
/-- Where nothing overflows, the block is longer than its length field if there are properties. -/
theorem full_iff : 1 < p.fullLen ↔ s.entries ≠ [] := by
  rw [UInt32.lt_iff_toNat_lt, UInt32.toNat_one, full]
  constructor
  · intro more none
    have single : p.len = 0 := by
      rw [built.counted, none]
      rfl
    have one : uvarintCalc 0 = 1 := by decide
    have nothing : weight ([] : List PropertyEntry) = 0 := rfl
    rw [none, single, one, nothing] at more
    omega
  · intro some
    have positive := uvarintCalc_pos p.len
    have weight := s.weight_pos some
    omega

include built length full in
/-- Where nothing overflows, the size of the packet counts what is written. -/
theorem reasonSize_eq {h : Header} (five : h.version = ProtocolV50) (holds : h.properties = p)
    (reasonCode : ReasonCode) : h.reasonSize reasonCode = s.reasonLength reasonCode := by
  have written := uvarintCalc_eq_length p.len
  unfold Header.reasonSize reasonLength
  rw [if_pos five, holds]
  by_cases none : s.entries = []
  · have bare : ¬1 < p.fullLen := fun more => (full_iff built full).mp more none
    simp only [if_pos none, bare, false_or, if_false, ne_eq, ite_not, Nat.add_zero]
  · have more : 1 < p.fullLen := (full_iff built full).mpr none
    simp only [if_neg none, more, true_or, if_true, full]
    rw [written, length]
    omega

end Counted

end Settings

namespace Disconnect

variable {h : Header}

theorem run_written (five : h.version = ProtocolV50) {code : ReasonCode}
    (valid : ReasonCode.isValidForType code h.mType = true) {remLen : Int} (more : ¬remLen < 2)
    (rest : Bytes) :
    (decodeMessage h remLen).run (code :: rest) =
      ((block true h.mType).run rest).map fun (properties, n) =>
        (.control { h with properties } (.disconnect code), 1 + n) := by
  simp only [decodeMessage, if_pos five, if_neg (show ¬remLen < 1 by omega), Reader.run_bind,
    Reader.run_byte_cons, valid, Bool.not_true, Bool.false_eq_true, if_false, if_neg more,
    List.drop_succ_cons, List.drop_zero]
  cases (block true h.mType).run rest <;> rfl

/-- With a remaining length of one there has to be a byte behind the packet. -/
theorem run_single (five : h.version = ProtocolV50) {code : ReasonCode}
    (valid : ReasonCode.isValidForType code h.mType = true) (rest : Bytes) :
    (decodeMessage h 1).run (code :: rest) =
      if rest = [] then .error (.error (.reason CodeMalformedPacket))
      else .ok (.control h (.disconnect code), 2) := by
  cases rest <;> simp [decodeMessage, Reader.run_bind, five, valid, reject, Except.map]

/-- A DISCONNECT with a reason code or properties, but not with a reason code alone. -/
theorem rereads_reason (order : MapOrder PropertyEntry) (five : h.version = ProtocolV50)
    (blank : h.properties = .empty) {p : Property} {code : ReasonCode} (exact : p.Exact h.mType)
    (short : ({ h with properties := p } : Header).reasonSize code ≤ 268435455)
    (valid : ReasonCode.isValidForType code h.mType = true)
    (explained : code ≠ CodeSuccess → 1 < p.fullLen) :
    (Message.control { h with properties := p } (.disconnect code)).Rereads h.mType h.mFlags
      (fun remLen => decodeMessage h remLen) order := by
  have length := @Header.length_reasonBytes { h with properties := p } order exact.encodable code
  have emits := @Header.emits_encodeReason { h with properties := p } order exact.encodable code
  by_cases full : 1 < p.fullLen
  · rcases Property.reads_exact exact order with ⟨done, reads, -, same⟩
    have bytes : ({ h with properties := p } : Header).reasonBytes order code =
        code :: p.bytes order := by
      simp only [Header.reasonBytes, if_pos five, full, true_or, if_true]
    rw [bytes] at length emits
    refine ⟨rfl, rfl, code :: p.bytes order,
      .control { h with properties := done } (.disconnect code), emits, length, length ▸ short, ?_,
      ⟨rfl, rfl, rfl, rfl, rfl, same⟩⟩
    have blockLength := Property.length_bytes order exact.encodable
    rw [UInt32.lt_iff_toNat_lt, UInt32.toNat_one] at full
    rw [run_written five valid (by simp only [List.length_cons]; omega), reads.run]
    simp only [Except.map, List.length_cons, Except.ok.injEq, Prod.mk.injEq, true_and]
    omega
  · have success : code = CodeSuccess := by
      by_contra other
      exact full (explained other)
    have bytes : ({ h with properties := p } : Header).reasonBytes order code = [] := by
      simp only [Header.reasonBytes, if_pos five, full, success, ne_eq, not_true_eq_false, or_self,
        if_false]
    rw [bytes] at length emits
    refine ⟨rfl, rfl, [], .control h (.disconnect code), emits, length, by simp, ?_,
      ⟨rfl, rfl, rfl, rfl, rfl, blank ▸ exact.same_empty full⟩⟩
    simp [decodeMessage, five, success]

end Disconnect

/-- The properties that a decoder has found behind the packet identifier. -/
def FoundBehind (t : PacketType) (p : Property) : Bytes → Prop
  | [] => p = .empty
  | _ :: rest => if rest = [] then p = .empty else (block true t).run rest = .ok (p, rest.length)

section Found

variable {h k : Header} {body : Body} {rest : Bytes}

theorem Ack.foundBehind (five : h.version = ProtocolV50) (blank : h.properties = .empty)
    {id : IDType} (run : (Ack.decodeMessage h).run (putUint16 id ++ rest) =
      .ok (.control k body, 2 + rest.length)) : FoundBehind h.mType k.properties rest := by
  cases rest with
  | nil =>
      rw [List.append_nil, Ack.run_putUint16] at run
      simp only [Except.ok.injEq, Prod.mk.injEq, Message.control.injEq] at run
      rw [← run.1.1]
      exact blank
  | cons code rest =>
      simp only [putUint16, List.cons_append, List.nil_append] at run
      rw [Ack.run_reason five] at run
      simp only [FoundBehind]
      split at run
      · simp at run
      · split
        · rename_i alone
          rw [if_pos alone] at run
          simp only [Except.ok.injEq, Prod.mk.injEq, Message.control.injEq] at run
          rw [← run.1.1]
          exact blank
        · rename_i more
          rw [if_neg more] at run
          rcases map_eq_ok.mp run with ⟨⟨p, n⟩, props, same⟩
          simp only [Prod.mk.injEq, Message.control.injEq, List.length_cons] at same
          rw [props, ← same.1.1, show n = rest.length by omega]

/-- A reason code alone is never read. -/
theorem Disconnect.foundBehind (five : h.version = ProtocolV50) (blank : h.properties = .empty)
    (run : (Disconnect.decodeMessage h (rest.length % 2 ^ 32 : ℕ)).run rest =
      .ok (.control k body, rest.length)) :
    rest.length ≠ 1 ∧ FoundBehind h.mType k.properties rest := by
  cases rest with
  | nil =>
      simp only [Disconnect.decodeMessage, if_pos five, List.length_nil, Nat.zero_mod, Nat.cast_zero,
        zero_lt_one, if_true, Reader.run_pure, Except.ok.injEq, Prod.mk.injEq,
        Message.control.injEq] at run
      refine ⟨by simp, ?_⟩
      rw [← run.1.1]
      exact blank
  | cons code rest =>
      by_cases valid : ReasonCode.isValidForType code h.mType = true
      · by_cases few : (((code :: rest).length % 2 ^ 32 : ℕ) : Int) < 2
        · exfalso
          by_cases zero : (code :: rest).length % 2 ^ 32 = 0
          · rw [zero] at run
            simp [Disconnect.decodeMessage, five] at run
          · have one : (((code :: rest).length % 2 ^ 32 : ℕ) : Int) = 1 := by omega
            rw [one, Disconnect.run_single five valid] at run
            split at run
            · simp at run
            · simp only [Except.ok.injEq, Prod.mk.injEq] at run
              omega
        · rw [Disconnect.run_written five valid few] at run
          rcases map_eq_ok.mp run with ⟨⟨p, n⟩, props, same⟩
          simp only [Prod.mk.injEq, Message.control.injEq, List.length_cons] at same
          have some : rest ≠ [] := by
            rintro rfl
            simp at few
          refine ⟨by simpa using some, ?_⟩
          rw [FoundBehind, if_neg some, ← same.1.1, props, show n = rest.length by omega]
      · exfalso
        simp only [Disconnect.decodeMessage, if_pos five] at run
        split at run
        · simp at run
        · simp [Reader.run_bind, valid, reject, Except.map] at run

end Found

theorem Header.encodeReason_eq_ok {order : MapOrder PropertyEntry} {h : Header}
    (five : h.version = ProtocolV50) {code : ReasonCode} {rest : Bytes} {count : ℕ}
    (run : h.encodeReason order code (List.replicate (h.reasonSize code) 0) = .ok (rest, count)) :
    if 1 < h.properties.fullLen then
      ∃ block, block.length = h.properties.fullLen.toNat ∧ rest = code :: block
    else rest = if code = CodeSuccess then [] else [code] := by
  have length := (h.grows_encodeReason order code).steady _ _ _ run
  rw [List.length_replicate] at length
  split
  · rename_i full
    have size : h.reasonSize code = 1 + h.properties.fullLen.toNat := by
      simp only [reasonSize, if_pos five, full, true_or, if_true]
    have encoder : h.encodeReason order code =
        .seq (.put [code]) (h.properties.encode order) := by
      simp only [encodeReason, if_pos five, full, true_or, if_true]
    rw [encoder, (emits_put [code]).run_seq _ (fresh_replicate _) (by simp; omega)] at run
    rcases map_eq_ok.mp run with ⟨⟨block, more⟩, -, same⟩
    simp only [Prod.mk.injEq] at same
    refine ⟨block, ?_, same.1.symm⟩
    rw [← same.1, List.length_append, List.length_singleton] at length
    omega
  · rename_i bare
    by_cases success : code = CodeSuccess
    · have size : h.reasonSize code = 0 := by
        simp only [reasonSize, if_pos five, bare, success, ne_eq, not_true_eq_false, or_self,
          if_false]
      rw [if_pos success, ← List.length_eq_zero_iff]
      omega
    · have encoder : h.encodeReason order code = .seq (.put [code]) .skip := by
        simp only [encodeReason, if_pos five, bare, ne_eq, success, not_false_eq_true, or_true,
          if_true, if_false]
      have size : h.reasonSize code = 1 := by
        simp only [reasonSize, if_pos five, bare, ne_eq, success, not_false_eq_true, or_true,
          if_true, if_false]
      have emits : Emits Fresh (Writer.seq (.put [code]) .skip : Writer PacketError) ([code] ++ []) :=
        (emits_put [code]).seq inherited_fresh emits_skip
      rw [encoder, size, emits _ (fresh_replicate 1) (le_refl _)] at run
      simp only [Except.ok.injEq, Prod.mk.injEq] at run
      rw [if_neg success, ← run.1]
      rfl

/-- A block that was found again to its last byte has a length that did not overflow. -/
theorem Property.Built.full_of_run {t : PacketType} {p found : Property}
    {entries : List PropertyEntry} (built : p.Built entries) {src : Bytes}
    (length : src.length = p.fullLen.toNat)
    (run : (block true t).run src = .ok (found, src.length)) (same : p.Same found) :
    p.len.toNat = weight entries ∧ p.fullLen.toNat = weight entries + uvarintCalc p.len ∧
      p.fullLen.toNat < 2 ^ 29 + 5 := by
  have held : found.properties.entries.Perm p.properties.entries := by
    apply List.lookup_ext found.properties.nodupKeys p.properties.nodupKeys
    intro id val
    rw [show p.properties.entries.dlookup id = found.properties.entries.dlookup id from same id]
  have total : weight found.properties.entries = weight entries :=
    ((held.trans built.held).map _).sum_nat
  have decoded := run
  rw [run_block] at decoded
  have covered := (read_decode decoded).1.covered
  have bound := p.fullLen.toNat_lt
  have width := uvarintCalc_le p.len
  have counted : p.len.toNat = weight entries := by
    rw [built.counted, UInt32.toNat_ofNat', Nat.mod_eq_of_lt (by omega)]
  have full : p.fullLen.toNat = (p.len.toNat + uvarintCalc p.len) % 2 ^ 32 := by
    rw [fullLen, UInt32.toNat_add, UInt32.toNat_ofNat', Nat.add_mod_mod]
  have ends := block_consumes (by omega) run
  have header := uvarint_le src
  rcases read : uvarint src with ⟨value, n⟩
  rw [decode, read] at decoded
  rw [read] at header
  rw [blockLength, read] at ends
  simp only [malformed] at decoded ends header
  split at decoded
  · simp at decoded
  · have fields := uvarint_bound read (by omega)
    omega

/-- The bytes behind the packet identifier as they were written, with the properties that were found
in them. -/
def Header.Refound (order : MapOrder PropertyEntry) (h : Header) (code : ReasonCode) (p : Property)
    (rest : Bytes) : Prop :=
  (∃ count, h.encodeReason order code (List.replicate (h.reasonSize code) 0) = .ok (rest, count)) ∧
    FoundBehind h.mType p rest

section Refound

variable {order : MapOrder PropertyEntry} {h k : Header} {code : ReasonCode} {buf : Bytes}
  {body : Body}

theorem Ack.refound (isAck : h.mType ∈ Ack.types) (flags : h.mFlags = h.mType.defaultFlags)
    {id : IDType} (named : h.packetID = some id)
    (encoded : (Message.control h (.ack code)).encode order = .ok buf)
    (decoded : decode ProtocolV50 buf = .ok (.control k body, buf.length)) :
    ∃ rest, h.Refound order code k.properties rest ∧
      (2 + h.reasonSize code) % 2 ^ 32 ≤ 268435455 := by
  rcases @Ack.accepted ProtocolV50 h.mType isAck with ⟨created, small, accepted, reader⟩
  rw [← flags] at small accepted
  have encoder : Message.encodeMessage order (.control h (.ack code)) =
      .seq (.copy (putUint16 id)) (h.encodeReason order code) := by
    simp only [Message.encodeMessage, Body.encodeMessage, Header.encodePacketID, named]
  rcases Message.run_of_decode encoded created small accepted decoded with
    ⟨written, count, short, run, length, read⟩
  have size : (Message.control h (.ack code)).size = 2 + h.reasonSize code := rfl
  rw [encoder, (emits_copy (putUint16 id)).run_seq _ (fresh_replicate _)
    (by rw [length_putUint16, List.length_replicate, size]; omega), List.drop_replicate,
    length_putUint16, size, Nat.add_sub_cancel_left] at run
  rcases map_eq_ok.mp run with ⟨⟨rest, more⟩, reason, same⟩
  simp only [Prod.mk.injEq] at same
  refine ⟨rest, ⟨⟨more, reason⟩, ?_⟩, short⟩
  have reads : (Ack.decodeMessage (.new ProtocolV50 h.mType)).run (putUint16 id ++ rest) =
      .ok (.control k body, 2 + rest.length) := by
    rw [← length, ← same.1, List.length_append, length_putUint16] at read
    rw [← reader, ← flags]
    exact read
  exact @Ack.foundBehind (.new ProtocolV50 h.mType) k body rest rfl rfl id reads

theorem Disconnect.refound (type : h.mType = .DISCONNECT) (flags : h.mFlags = h.mType.defaultFlags)
    (encoded : (Message.control h (.disconnect code)).encode order = .ok buf)
    (decoded : decode ProtocolV50 buf = .ok (.control k body, buf.length)) :
    ∃ rest, h.Refound order code k.properties rest ∧ rest.length ≠ 1 ∧
      h.reasonSize code % 2 ^ 32 ≤ 268435455 := by
  have created : newMessage ProtocolV50 h.mType =
      .ok (.control (.new ProtocolV50 .DISCONNECT) (.disconnect 0)) := by
    rw [type]
    rfl
  have small : h.mFlags.toNat < 16 := by
    rw [flags, type]
    decide
  have accepted : flagsRejected h.mType h.mFlags = false := by
    rw [flags, type]
    decide
  rcases Message.run_of_decode encoded created small accepted decoded with
    ⟨rest, count, short, run, length, read⟩
  have reads : (Disconnect.decodeMessage (.new ProtocolV50 .DISCONNECT)
      (rest.length % 2 ^ 32 : ℕ)).run rest = .ok (.control k body, rest.length) := by
    rw [← length] at read
    simp only [Message.mType, Message.mFlags, flags, type] at read
    exact read
  rcases Disconnect.foundBehind rfl rfl reads with ⟨apart, found⟩
  exact ⟨rest, ⟨⟨count, run⟩, type ▸ found⟩, apart, short⟩

end Refound

theorem Ack.ne_disconnect {t : PacketType} (isAck : t ∈ Ack.types) : t ≠ .DISCONNECT := by
  rintro rfl
  exact absurd isAck (by decide)

/-- A PUBACK, PUBREC, PUBREL, PUBCOMP or DISCONNECT of V5.0 with a reason code that its type may
have. The acknowledgements have a packet identifier. -/
structure Reasoned where
  mType : PacketType
  packetID : Option IDType
  reasonCode : ReasonCode
  properties : Settings mType
  named : mType ∈ Ack.types ∧ packetID.isSome ∨ mType = .DISCONNECT ∧ packetID = none
  valid : ReasonCode.isValidForType reasonCode mType = true

namespace Reasoned

variable (r : Reasoned)

def body : Body :=
  if r.mType = .DISCONNECT then .disconnect r.reasonCode else .ack r.reasonCode

def header (properties : Property) : Header :=
  { Header.new ProtocolV50 r.mType with packetID := r.packetID, properties }

/-- `New(ProtocolV50, mType)`, followed by the setters. -/
def message : Except PacketError Message :=
  r.properties.properties.map fun properties => .control (r.header properties) r.body

/-- The packet is encoded, and what was written is decoded to its last byte, to a packet with the
same identifier, reason code and properties. -/
def RoundTrips (order : MapOrder PropertyEntry) : Prop :=
  ∃ m buf h, r.message = .ok m ∧ m.encode order = .ok buf ∧
    decode ProtocolV50 buf = .ok (.control h r.body, buf.length) ∧ h.packetID = r.packetID ∧
    ∀ id, h.properties.get id = r.properties.entries.dlookup id

/-- The number of bytes behind the fixed header. -/
def wireLength : ℕ :=
  (if r.mType = .DISCONNECT then 0 else 2) + r.properties.reasonLength r.reasonCode

/-- A reason code goes without properties where the decoder asks for them. -/
def Unexplained : Prop :=
  r.mType = .DISCONNECT ∧ r.reasonCode ≠ CodeSuccess ∧ r.properties.entries = []

variable {r} {order : MapOrder PropertyEntry} {p : Property}

theorem body_ack (isAck : r.mType ∈ Ack.types) : r.body = .ack r.reasonCode :=
  if_neg (Ack.ne_disconnect isAck)

theorem restored (exact : p.Exact r.mType)
    (short : (if r.mType = .DISCONNECT then 0 else 2) + (r.header p).reasonSize r.reasonCode ≤
      268435455)
    (explained : r.mType = .DISCONNECT → r.reasonCode ≠ CodeSuccess → 1 < p.fullLen) :
    (Message.control (r.header p) r.body).Restored ProtocolV50 order := by
  rcases r with ⟨t, packetID, code, s, ⟨isAck, some⟩ | ⟨rfl, rfl⟩, valid⟩
  · rcases Option.isSome_iff_exists.mp some with ⟨id, rfl⟩
    rcases @Ack.accepted ProtocolV50 t isAck with ⟨created, small, accepted, reader⟩
    rw [body_ack isAck]
    rw [if_neg (Ack.ne_disconnect isAck)] at short
    apply Message.Rereads.restored created small accepted
    simp only [reader]
    exact @Ack.rereads_reason (.new ProtocolV50 t) order rfl rfl id p code exact short
      fun _ => valid
  · have created : newMessage ProtocolV50 .DISCONNECT =
        .ok (.control (.new ProtocolV50 .DISCONNECT) (.disconnect 0)) := rfl
    rw [if_pos rfl, Nat.zero_add] at short
    refine Message.Rereads.restored created (show (0 : UInt8).toNat < 16 by decide)
      (show flagsRejected .DISCONNECT 0 = false by decide) ?_
    exact @Disconnect.rereads_reason (.new ProtocolV50 .DISCONNECT) order rfl rfl p code exact short
      valid (explained rfl)

theorem roundTrips_of_short (short : r.wireLength ≤ 268435455) (explained : ¬r.Unexplained) :
    r.RoundTrips order := by
  rcases r.properties.properties_built with ⟨p, set, built⟩
  have few : weight r.properties.entries < 2 ^ 29 := by
    by_cases none : r.properties.entries = []
    · rw [none]
      decide
    · simp only [wireLength, Settings.reasonLength, if_neg none] at short
      omega
  have exact : p.Exact r.mType := built.exact r.properties.typed r.properties.allowed few
  have length : p.len.toNat = weight r.properties.entries := by
    rw [exact.counted, built.weight_eq]
  have full := Property.toNat_fullLen exact.encodable
  rw [length] at full
  have size := @Settings.reasonSize_eq _ _ p built length full (r.header p) rfl rfl r.reasonCode
  have restored := @restored r order p exact (by rw [size]; exact short) (by
    intro type said
    refine (Settings.full_iff built full).mpr fun none => ?_
    exact explained ⟨type, said, none⟩)
  rcases restored with ⟨buf, encoded, again, decoded, same⟩
  cases again with
  | publish msg => exact same.elim
  | control h body =>
      rcases same with ⟨-, -, -, id, sameBody, properties⟩
      refine ⟨_, buf, h, by rw [message, set]; rfl, encoded, sameBody ▸ decoded, id.symm, ?_⟩
      intro key
      rw [← Settings.get_built built key]
      exact (properties key).symm

theorem refound {buf : Bytes} {k : Header} {body : Body}
    (encoded : (Message.control (r.header p) r.body).encode order = .ok buf)
    (decoded : decode ProtocolV50 buf = .ok (.control k body, buf.length)) :
    ∃ rest, (r.header p).Refound order r.reasonCode k.properties rest ∧
      (r.mType = .DISCONNECT → rest.length ≠ 1) ∧
      ((if r.mType = .DISCONNECT then 0 else 2) + (r.header p).reasonSize r.reasonCode) % 2 ^ 32 ≤
        268435455 := by
  rcases r with ⟨t, packetID, code, s, ⟨isAck, some⟩ | ⟨rfl, rfl⟩, valid⟩
  · rcases Option.isSome_iff_exists.mp some with ⟨id, rfl⟩
    have other := Ack.ne_disconnect isAck
    rw [body_ack isAck] at encoded
    rcases Ack.refound isAck rfl rfl encoded decoded with ⟨rest, found, short⟩
    refine ⟨rest, found, fun type => absurd type other, ?_⟩
    rw [if_neg other]
    exact short
  · rcases Disconnect.refound rfl rfl encoded decoded with ⟨rest, found, apart, short⟩
    refine ⟨rest, found, fun _ => apart, ?_⟩
    rw [if_pos rfl, Nat.zero_add]
    exact short

theorem short_of_roundTrips (roundTrips : r.RoundTrips order) :
    r.wireLength ≤ 268435455 ∧ ¬r.Unexplained := by
  rcases roundTrips with ⟨m, buf, k, made, encoded, decoded, -, same⟩
  rcases r.properties.properties_built with ⟨p, set, built⟩
  rw [message, set] at made
  simp only [Except.map, Except.ok.injEq] at made
  subst made
  have sameProperties : p.Same k.properties := by
    intro id
    rw [Settings.get_built built id, same id]
  rcases refound encoded decoded with ⟨rest, ⟨⟨count, written⟩, found⟩, apart, short⟩
  have parts := Header.encodeReason_eq_ok rfl written
  change if 1 < p.fullLen then _ else _ at parts
  by_cases more : 1 < p.fullLen
  · rw [if_pos more] at parts
    rcases parts with ⟨block, blockLength, rfl⟩
    have positive := UInt32.lt_iff_toNat_lt.mp more
    rw [UInt32.toNat_one] at positive
    have some : block ≠ [] := by
      rintro rfl
      rw [List.length_nil] at blockLength
      change 0 = p.fullLen.toNat at blockLength
      omega
    rw [FoundBehind, if_neg some] at found
    rcases built.full_of_run blockLength found sameProperties with ⟨length, full, fits⟩
    have size := @Settings.reasonSize_eq _ _ p built length full (r.header p) rfl rfl r.reasonCode
    have bound := Header.reasonSize_le (r.header p) r.reasonCode
    change _ ≤ 1 + p.fullLen.toNat at bound
    refine ⟨?_, fun unexplained => (Settings.full_iff built full).mp more unexplained.2.2⟩
    unfold wireLength
    rw [← size]
    split at short
    · rw [if_pos ‹_›]
      omega
    · rw [if_neg ‹_›]
      omega
  · rw [if_neg more] at parts
    have blank : k.properties = .empty := by
      rw [parts] at found
      split at found
      · exact found
      · exact found
    have none : r.properties.entries = [] := by
      cases entries : r.properties.entries with
      | nil => rfl
      | cons entry later =>
          have absent := same entry.1
          rw [blank, entries, List.dlookup_cons_eq] at absent
          cases absent
    refine ⟨?_, ?_⟩
    · simp only [wireLength, Settings.reasonLength, if_pos none]
      split <;> split <;> decide
    · rintro ⟨type, said, -⟩
      rw [if_neg said] at parts
      exact apart type (by rw [parts]; rfl)

/-- A V5.0 packet with a reason is read back as it was built exactly if it is not too long and is no
DISCONNECT with a reason code but without properties, in every iteration order. -/
theorem roundTrips_iff_explained (r : Reasoned) (order : MapOrder PropertyEntry) :
    r.RoundTrips order ↔ r.wireLength ≤ 268435455 ∧ ¬r.Unexplained :=
  ⟨short_of_roundTrips, fun ⟨short, explained⟩ => roundTrips_of_short short explained⟩

/-- A server that shuts down says so. -/
def shuttingDown : Reasoned where
  mType := .DISCONNECT
  packetID := none
  reasonCode := CodeServerShuttingDown
  properties := .none _
  named := .inr ⟨rfl, rfl⟩
  valid := by decide

theorem shuttingDown_refused :
    ∃ m, shuttingDown.message = .ok m ∧
      m.encode (.insertion _) = .ok [0xE0, 0x01, 0x8B] ∧
      decode ProtocolV50 [0xE0, 0x01, 0x8B] = .error (.reason CodeMalformedPacket) ∧
      ¬shuttingDown.RoundTrips (.insertion _) := by
  refine ⟨_, rfl, rfl, rfl, ?_⟩
  rintro ⟨m, buf, h, made, encoded, decoded, -⟩
  cases made
  cases encoded
  cases decoded

end Reasoned

namespace Auth

def message (authReason : ReasonCode) (properties : Property) : Message :=
  .control { Header.new ProtocolV50 .AUTH with properties } (.auth authReason)

/-- As many bytes as `Size` says are written, and they are decoded to the same packet, to the last
of them. -/
def RoundTrips (order : MapOrder PropertyEntry) (m : Message) : Prop :=
  ∃ sz buf, m.fullSize = .ok sz ∧ m.encodeTo order (List.replicate sz 0) = .ok (buf, sz) ∧
    ∃ again, decode ProtocolV50 buf = .ok (again, buf.length) ∧ m.Same again

variable {h : Header} {body : Bytes} {m : Message} {n : ℕ}

/-- A packet that is decoded starts with a valid reason, and a block starts at the same byte. -/
theorem run_eq_ok (run : (decodeMessage h).run body = .ok (m, n)) :
    ∃ authReason rest p, body = authReason :: rest ∧
      ReasonCode.isValidForType authReason h.mType = true ∧
      (block true h.mType).run body = .ok (p, n) := by
  cases body with
  | nil => simp [decodeMessage, Reader.run_bind, Reader.peek] at run
  | cons authReason rest =>
      simp only [decodeMessage, reject, Reader.run_bind_eq_ok, Reader.run_check_eq_ok,
        Reader.run_peek_cons, Reader.run_pure, Except.ok.injEq, Prod.mk.injEq] at run
      rcases run with ⟨_, _, _, ⟨rfl, rfl⟩, ⟨valid, p, k, _, props, ⟨-, rfl⟩, rfl⟩, rfl⟩
      refine ⟨authReason, rest, p, rfl, by simpa using valid, ?_⟩
      rw [List.drop_zero] at props
      simpa using props

/-- What is written without properties: the reason, and a byte that nobody has written. -/
theorem not_reads_bare {authReason : ReasonCode}
    (valid : ReasonCode.isValidForType authReason .AUTH = true) (p : Property) :
    (block true .AUTH).run [authReason, 0] ≠ .ok (p, 2) := by
  intro run
  have ends := block_consumes (by simp) run
  have reasons : authReason ∈ packetTypeCodes .AUTH := by
    simpa [ReasonCode.isValidForType] using valid
  simp only [packetTypeCodes, List.mem_cons, List.not_mem_nil, or_false] at reasons
  rcases reasons with rfl | rfl | rfl
  · exact absurd ends (by decide)
  · exact absurd ends (by decide)
  · exact absurd ends (by decide)

/-- With properties, they take the place of the reason and end a byte before the packet does. -/
theorem not_reads_block {p q : Property} {rest : Bytes}
    (length : (putUvarint p.len.toNat ++ rest).length = 1 + p.fullLen.toNat) :
    (block true .AUTH).run (putUvarint p.len.toNat ++ rest) ≠
      .ok (q, 1 + p.fullLen.toNat) := by
  intro run
  have width := uvarintCalc_le p.len
  have written := uvarintCalc_eq_length p.len
  have bound := p.len.toNat_lt
  by_cases small : p.len.toNat < 2 ^ 29
  · have full : p.fullLen.toNat = p.len.toNat + uvarintCalc p.len := by
      rw [Property.fullLen, UInt32.toNat_add, UInt32.toNat_ofNat']
      omega
    have ends := block_consumes (by omega) run
    rw [blockLength, uvarint_putUvarint small, Int.toNat_natCast, UInt32.ofNat_toNat] at ends
    simp only at ends
    omega
  · rw [run_block, Property.decode, uvarint_putUvarint_of_le (by omega) bound] at run
    simp [malformed] at run

/-- No AUTH packet is read back to its last byte, whatever its reason and properties are. -/
theorem not_consumed (authReason : ReasonCode) (p : Property) (order : MapOrder PropertyEntry)
    {buf : Bytes} {again : Message} (encoded : (message authReason p).encode order = .ok buf) :
    decode ProtocolV50 buf ≠ .ok (again, buf.length) := by
  intro decoded
  obtain ⟨body, count, -, written, length, read⟩ := Message.run_of_decode encoded
    (show newMessage ProtocolV50 .AUTH = .ok (.control (.new ProtocolV50 .AUTH) (.auth 0)) from rfl)
    (show (0 : UInt8).toNat < 16 by decide) (show flagsRejected .AUTH 0 = false by decide)
    decoded
  rcases run_eq_ok read with ⟨first, rest, q, start, valid, run⟩
  have size : (message authReason p).size = p.fullLen.toNat + 1 := Nat.add_comm _ _
  rw [size, List.replicate_succ] at written
  change p.encode order (authReason :: List.replicate p.fullLen.toNat 0) = _ at written
  simp only [Property.encode, List.length_cons, List.length_replicate,
    if_neg (show ¬p.fullLen.toNat + 1 < p.fullLen.toNat by omega)] at written
  split at written
  · rename_i single
    have one : p.fullLen.toNat = 1 := by rw [single]; rfl
    simp only [one, List.replicate_one, Except.ok.injEq, Prod.mk.injEq] at written
    rw [← written.1, size, one] at run
    rw [← written.1, List.cons.injEq] at start
    exact not_reads_bare (start.1 ▸ valid) q run
  · rcases exists_of_seq_put written with ⟨tail, rfl⟩
    rw [size, Nat.add_comm] at length run
    exact not_reads_block length run

/-- AUTH packets never round trip: for no reason and no properties of whatever kind. -/
theorem not_roundTrips (authReason : ReasonCode) (p : Property) (order : MapOrder PropertyEntry) :
    ¬RoundTrips order (message authReason p) := by
  rintro ⟨sz, buf, sized, written, again, decoded, -⟩
  have encoded : (message authReason p).encode order = .ok buf := by
    rw [Message.encode, sized]
    simp only [written, Except.map]
  exact not_consumed authReason p order encoded decoded

/-- An AUTH packet without properties: of the four bytes that `Size` announces, three are reported
as written and three are consumed. -/
theorem success_not_roundTrips :
    (message CodeSuccess .empty).fullSize = .ok 4 ∧
      (message CodeSuccess .empty).encodeTo (.insertion _) (List.replicate 4 0) =
        .ok ([0xF0, 0x02, 0x00, 0x00], 3) ∧
      (∃ again, decode ProtocolV50 [0xF0, 0x02, 0x00, 0x00] = .ok (again, 3)) ∧
      ¬RoundTrips (.insertion _) (message CodeSuccess .empty) := by
  refine ⟨rfl, rfl, ⟨_, rfl⟩, ?_⟩
  rintro ⟨sz, buf, sized, written, -⟩
  cases sized
  cases written

end Auth

end VolantMQ.Packet
