import VolantMQ.Lib.Overlay
import VolantMQ.Packet.Frame

/-!
# What an encoded packet shows of the slice

An encoder trusts the counts of the encoders that it calls. All of them write what they report but
one: `property.encode` reports the byte of the length of an empty block and returns before it has
written it. Where the block is encoded whether it is empty or not, the packet contains whatever the
slice held at this place. Into a fresh slice that is the right byte.
-/

namespace VolantMQ.Packet

open Lib

section Fields

variable {least : ℕ}

theorem prints_writeLPBytes (field : Bytes) :
    Prints least (writeLPBytes field) (.full (lpBytes field)) := by
  intro dest written count _ run
  simp only [writeLPBytes] at run
  split at run
  · simp at run
  · split at run
    · simp at run
    · rename_i room
      simp only [Except.ok.injEq, Prod.mk.injEq] at run
      rcases run with ⟨rfl, rfl⟩
      refine ⟨?_, by simp, ?_⟩
      · rw [List.length_append, length_lpBytes, List.length_drop]
        omega
      · intro _
        rw [overlay_full (by rw [length_lpBytes]; omega), length_lpBytes]

/-- A text that does not fit is reported and not written, and a text that is too long is neither. -/
theorem leaves_writeLPBytesDropErr (field : Bytes) :
    Leaves least (writeLPBytesDropErr field) False := by
  by_cases long : MaxLPString < field.length
  · refine ⟨[], ?_, by simp⟩
    intro dest written count enough run
    simp only [writeLPBytesDropErr, if_pos long] at run
    exact prints_skip dest written count enough run
  · refine @Prints.leaves _ _ _ (lpBytes field) ?_
    intro dest written count enough run
    simp only [writeLPBytesDropErr, if_neg long] at run
    split at run
    · rename_i short
      simp only [Except.ok.injEq, Prod.mk.injEq] at run
      rcases run with ⟨rfl, rfl⟩
      refine ⟨rfl, by simp, ?_⟩
      rw [Mask.length_full, length_lpBytes]
      omega
    · exact prints_writeLPBytes field dest written count enough run

theorem grows_writeLPBytes (field : Bytes) : Grows (writeLPBytes field) := by
  intro dest other written count longer run
  simp only [writeLPBytes] at run ⊢
  split at run
  · simp at run
  · split at run
    · simp at run
    · rename_i short room
      simp only [Except.ok.injEq, Prod.mk.injEq] at run
      rw [if_neg short, if_neg (by omega)]
      refine ⟨_, _, rfl, ?_, by omega⟩
      rw [List.length_append, length_lpBytes, List.length_drop]
      omega

theorem grows_writeLPBytesDropErr (field : Bytes) : Grows (writeLPBytesDropErr field) := by
  intro dest other written count longer run
  by_cases long : MaxLPString < field.length
  · simp only [writeLPBytesDropErr, if_pos long, Except.ok.injEq, Prod.mk.injEq] at run ⊢
    refine ⟨other, 0, ⟨rfl, rfl⟩, rfl, ?_⟩
    omega
  · simp only [writeLPBytesDropErr, if_neg long] at run ⊢
    split at run
    · simp only [Except.ok.injEq, Prod.mk.injEq] at run
      split
      · exact ⟨other, _, rfl, rfl, by omega⟩
      · refine ⟨_, _, by rw [writeLPBytes, if_neg long, if_neg (by assumption)], ?_, by omega⟩
        rw [List.length_append, length_lpBytes, List.length_drop]
        omega
    · rename_i room
      rw [if_neg (by omega)]
      exact grows_writeLPBytes field dest other written count longer run

theorem leaves_encodeItems {α : Type} (id : PropertyID) {encode : α → Writer PacketError}
    (element : ∀ item, Leaves 0 (encode item) False) (items : List α) :
    Leaves least (encodeItems id encode items) False :=
  Leaves.each (fun item => (prints_put _).leaves.behind (element item)) items

theorem grows_encodeItems {α : Type} (id : PropertyID) {encode : α → Writer PacketError}
    (element : ∀ item, Grows (encode item)) (items : List α) :
    Grows (encodeItems id encode items) :=
  Grows.each (fun item => (grows_put _).seq (element item)) items

theorem leaves_propertyEncodeType (id : PropertyID) (val : PropertyValue) :
    Leaves least (propertyEncodeType id val) False := by
  unfold propertyEncodeType
  cases propertyTypeMap id with
  | byte | short | int | varInt => exact leaves_encodeItems id (fun _ => (prints_put _).leaves) _
  | string | binary => exact leaves_encodeItems id leaves_writeLPBytesDropErr _
  | stringPair =>
      exact leaves_encodeItems id (fun pair : StringPair =>
        (leaves_writeLPBytesDropErr pair.K).behind (leaves_writeLPBytesDropErr pair.V)) _

theorem grows_propertyEncodeType (id : PropertyID) (val : PropertyValue) :
    Grows (propertyEncodeType id val) := by
  unfold propertyEncodeType
  cases propertyTypeMap id with
  | byte | short | int | varInt => exact grows_encodeItems id (fun _ => grows_put _) _
  | string | binary => exact grows_encodeItems id grows_writeLPBytesDropErr _
  | stringPair =>
      exact grows_encodeItems id (fun pair : StringPair =>
        (grows_writeLPBytesDropErr pair.K).seq (grows_writeLPBytesDropErr pair.V)) _

end Fields

section Blocks

variable (order : MapOrder PropertyEntry)

theorem Property.grows_encode (p : Property) : Grows (p.encode order) := by
  intro dest other written count longer run
  simp only [Property.encode] at run ⊢
  split at run
  · simp at run
  · rename_i room
    rw [if_neg (by omega)]
    split at run
    · simp only [Except.ok.injEq, Prod.mk.injEq] at run
      rename_i one
      rw [one] at room
      have one : (1 : UInt32).toNat = 1 := rfl
      exact ⟨other, 1, by rw [if_pos (by assumption)], rfl, by omega⟩
    · rename_i more
      rw [if_neg more]
      exact ((grows_put _).seq (Grows.each
        (fun entry : PropertyEntry => grows_propertyEncodeType entry.1 entry.2) _))
        dest other written count longer run

/-- The block that is not skipped starts with its length. -/
theorem Property.prints_encode {p : Property} (more : p.fullLen ≠ 1) :
    ∃ mask, Prints 0 (p.encode order) (.full (putUvarint p.len.toNat) ++ mask) ∧ none ∉ mask := by
  have entries : Leaves 0 (Writer.each (fun entry => propertyEncodeType entry.1 entry.2)
      (order.range p.properties.entries)) False :=
    Leaves.each (fun entry : PropertyEntry => leaves_propertyEncodeType entry.1 entry.2) _
  rcases entries with ⟨mask, prints, holes⟩
  refine ⟨mask, ?_, by simp [holes]⟩
  intro dest written count enough run
  simp only [Property.encode, if_neg more] at run
  split at run
  · simp at run
  · exact (prints_put (putUvarint p.len.toNat)).seq (prints.mono (Nat.zero_le _)) dest written count
      enough run

/-- An empty block leaves the byte of its length as it was. -/
theorem Property.leaves_encode (p : Property) : Leaves 0 (p.encode order) (p.fullLen = 1) := by
  by_cases one : p.fullLen = 1
  · refine ⟨[none], ?_, by simp [one]⟩
    intro dest written count _ run
    simp only [Property.encode, if_pos one] at run
    split at run
    · simp at run
    · rename_i room
      simp only [Except.ok.injEq, Prod.mk.injEq] at run
      rcases run with ⟨rfl, rfl⟩
      refine ⟨rfl, rfl, ?_⟩
      cases dest with
      | nil => simp
      | cons old dest => simp [overlay, covered]
  · rcases Property.prints_encode order one with ⟨mask, prints, whole⟩
    refine ⟨_, prints, ?_⟩
    simp [one, whole]

theorem Header.leaves_encodeBlock (h : Header) :
    Leaves 0 (h.encodeBlock order) (h.version = ProtocolV50 ∧ h.properties.fullLen = 1) := by
  unfold Header.encodeBlock
  split
  · rename_i five
    apply (h.properties.leaves_encode order).congr
    simp [five]
  · rename_i old
    apply leaves_skip.congr
    simp [old]

theorem Header.grows_encodeBlock (h : Header) : Grows (h.encodeBlock order) := by
  unfold Header.encodeBlock
  split
  · exact h.properties.grows_encode order
  · exact grows_skip

/-- A block that says nothing is left out behind a reason code. -/
theorem Header.leaves_encodeReason (h : Header) (reasonCode : ReasonCode) :
    Leaves 0 (h.encodeReason order reasonCode) False := by
  unfold Header.encodeReason
  split
  · split
    · apply (prints_put [reasonCode]).leaves.behind
      split
      · rename_i more
        apply (h.properties.leaves_encode order).congr
        simp only [iff_false]
        intro one
        rw [one] at more
        exact absurd more (by decide)
      · exact leaves_skip
    · exact leaves_skip
  · exact leaves_skip

theorem Header.grows_encodeReason (h : Header) (reasonCode : ReasonCode) :
    Grows (h.encodeReason order reasonCode) := by
  unfold Header.encodeReason
  split
  · split
    · apply (grows_put _).seq
      split
      · exact h.properties.grows_encode order
      · exact grows_skip
    · exact grows_skip
  · exact grows_skip

theorem Header.leaves_encodePacketID (h : Header) {next : Writer PacketError} {hole : Prop}
    (leaves : Leaves 0 next hole) : Leaves 2 (h.encodePacketID next) hole := by
  unfold Header.encodePacketID
  cases h.packetID with
  | none => exact leaves_fail _
  | some id => exact (prints_copy (by simp)).leaves.behind leaves

theorem Header.grows_encodePacketID (h : Header) {next : Writer PacketError} (grows : Grows next) :
    Grows (h.encodePacketID next) := by
  unfold Header.encodePacketID
  cases h.packetID with
  | none => exact grows_fail _
  | some id => exact (grows_copy _).seq grows

/-- The block of an AUTH goes over the reason, which stays where the block is skipped. -/
theorem Auth.leaves_encodeMessage (h : Header) (authReason : ReasonCode) :
    Leaves 0 (Auth.encodeMessage order h authReason) False := by
  by_cases one : h.properties.fullLen = 1
  · refine @Prints.leaves _ _ _ [authReason] ?_
    intro dest written count _ run
    cases dest with
    | nil => simp [Auth.encodeMessage] at run
    | cons old dest =>
        simp only [Auth.encodeMessage, Property.encode, if_pos one] at run
        split at run
        · simp at run
        · simp only [Except.ok.injEq, Prod.mk.injEq] at run
          rcases run with ⟨rfl, rfl⟩
          simp [overlay, covered, Mask.full]
  · rcases Property.prints_encode order one with ⟨mask, prints, whole⟩
    refine ⟨.full (putUvarint h.properties.len.toNat) ++ mask, ?_, by simp [whole]⟩
    intro dest written count _ run
    cases dest with
    | nil => simp [Auth.encodeMessage] at run
    | cons old dest =>
        rcases prints (authReason :: dest) written count (Nat.zero_le _) run with
          ⟨length, reported, printed⟩
        refine ⟨length, reported, ?_⟩
        intro room
        -- the first cell of the mask is the length, so the reason below it makes no difference
        have behind : ∀ count, 0 < count →
            (authReason :: dest).drop count = (old :: dest).drop count := by
          intro count positive
          cases count with
          | zero => simp at positive
          | succ count => rfl
        have hidden : covered (.full (putUvarint h.properties.len.toNat) ++ mask)
              (authReason :: dest) =
            covered (.full (putUvarint h.properties.len.toNat) ++ mask) (old :: dest) :=
          covered_eq (by simp [whole]) room room
        have positive := uvarintCalc_pos h.properties.len
        rw [uvarintCalc_eq_length] at positive
        rw [printed room, overlay, overlay, hidden, behind]
        rw [List.length_append, Mask.length_full]
        omega

theorem Auth.grows_encodeMessage (h : Header) (authReason : ReasonCode) :
    Grows (Auth.encodeMessage order h authReason) := by
  intro dest other written count longer run
  cases dest with
  | nil => simp [Auth.encodeMessage] at run
  | cons old dest =>
      cases other with
      | nil => simp at longer
      | cons byte other =>
          exact h.properties.grows_encode order (authReason :: dest) (authReason :: other) written
            count (by simpa using longer) run

end Blocks

namespace Message

/-- The packets whose empty property block is reported and not written. -/
def LeavesLength : Message → Prop
  | .publish msg => msg.version = ProtocolV50 ∧ msg.properties.fullLen = 1
  | .control h (.connect _) => ProtocolV50 ≤ h.version ∧ h.properties.fullLen = 1
  | .control h (.connAck _ _) | .control h (.subscribe _) | .control h (.subAck _)
  | .control h (.unSubAck _) => h.version = ProtocolV50 ∧ h.properties.fullLen = 1
  | .control _ _ => False

/-- The bytes that `Encode` reports do not depend on what the slice held before. -/
def Overwrites (order : MapOrder PropertyEntry) (m : Message) : Prop :=
  ∀ dest written n, m.encodeTo order dest = .ok (written, n) →
    ∀ left right leftWritten rightWritten leftCount rightCount,
      n ≤ left.length → n ≤ right.length →
      m.encodeTo order left = .ok (leftWritten, leftCount) →
      m.encodeTo order right = .ok (rightWritten, rightCount) →
      leftWritten.take n = rightWritten.take n

end Message

section Packets

variable (order : MapOrder PropertyEntry) (h : Header)

theorem Connect.leaves_encodeMessage (msg : Connect) :
    Leaves 0 (msg.encodeMessage order h) (ProtocolV50 ≤ h.version ∧ h.properties.fullLen = 1) := by
  unfold Connect.encodeMessage
  have flagged : ∀ (flag : Bool) (field : Bytes),
      Leaves 0 (if flag then writeLPBytes field else .skip) False := by
    intro flag field
    split
    · exact (prints_writeLPBytes field).leaves
    · exact leaves_skip
  split
  · exact leaves_fail _
  · apply (prints_writeLPBytes _).leaves.behind
    apply (prints_put _).leaves.behind
    apply (prints_put _).leaves.behind
    apply (prints_put _).leaves.behind
    apply Leaves.before
    · split
      · rename_i five
        apply (h.properties.leaves_encode order).congr
        simp [five]
      · rename_i old
        apply leaves_skip.congr
        simp [old]
    · apply (prints_writeLPBytes _).leaves.behind
      apply Leaves.behind
      · split
        · exact (prints_writeLPBytes _).leaves.behind (prints_writeLPBytes _).leaves
        · exact leaves_skip
      · exact (flagged _ _).behind (flagged _ _)

theorem Connect.grows_encodeMessage (msg : Connect) : Grows (msg.encodeMessage order h) := by
  unfold Connect.encodeMessage
  have flagged : ∀ (flag : Bool) (field : Bytes),
      Grows (if flag then writeLPBytes field else .skip) := by
    intro flag field
    split
    · exact grows_writeLPBytes field
    · exact grows_skip
  split
  · exact grows_fail _
  · apply (grows_writeLPBytes _).seq
    apply (grows_put _).seq
    apply (grows_put _).seq
    apply (grows_put _).seq
    apply Grows.seq
    · split
      · exact h.properties.grows_encode order
      · exact grows_skip
    · apply (grows_writeLPBytes _).seq
      apply Grows.seq
      · split
        · exact (grows_writeLPBytes _).seq (grows_writeLPBytes _)
        · exact grows_skip
      · exact (flagged _ _).seq (flagged _ _)

theorem UnSubscribe.leaves_encodeMessage (topics : List GoString) :
    Leaves 2 (UnSubscribe.encodeMessage h topics) False := by
  unfold UnSubscribe.encodeMessage
  split
  · exact leaves_fail _
  · split
    · exact leaves_fail _
    · exact (prints_copy (by simp)).leaves.behind
        (Leaves.each (fun topic => (prints_writeLPBytes topic).leaves) topics)

theorem UnSubscribe.grows_encodeMessage (topics : List GoString) :
    Grows (UnSubscribe.encodeMessage h topics) := by
  unfold UnSubscribe.encodeMessage
  split
  · exact grows_fail _
  · split
    · exact grows_fail _
    · exact (grows_copy _).seq (Grows.each grows_writeLPBytes topics)

theorem Body.leaves_encodeMessage (body : Body) :
    Leaves (body.size h) (body.encodeMessage order h) (Message.control h body).LeavesLength := by
  cases body with
  | connect msg => exact (msg.leaves_encodeMessage order h).mono (Nat.zero_le _)
  | connAck sessionPresent returnCode =>
      apply (prints_put _).leaves.behind
      exact (prints_put _).leaves.behind (h.leaves_encodeBlock order)
  | ack reasonCode =>
      refine (h.leaves_encodePacketID (h.leaves_encodeReason order reasonCode)).mono ?_
      simp [Body.size]
  | subscribe topics =>
      refine (h.leaves_encodePacketID ((h.leaves_encodeBlock order).thenEach ?_ topics)).mono ?_
      · rintro ⟨topic, ops⟩
        exact (prints_writeLPBytes topic).leaves.behind (prints_put _).leaves
      · simp only [Body.size]
        omega
  | subAck returnCodes =>
      refine (h.leaves_encodePacketID ((h.leaves_encodeBlock order).thenEach ?_ returnCodes)).mono ?_
      · intro code
        exact (prints_put _).leaves
      · simp only [Body.size]
        omega
  | unSubscribe topics =>
      refine (UnSubscribe.leaves_encodeMessage h topics).mono ?_
      simp [Body.size]
  | unSubAck returnCodes =>
      refine (h.leaves_encodePacketID (h.leaves_encodeBlock order)).mono ?_
      simp [Body.size]
  | pingReq | pingResp => exact leaves_skip
  | disconnect reasonCode => exact (h.leaves_encodeReason order reasonCode).mono (Nat.zero_le _)
  | auth authReason => exact (Auth.leaves_encodeMessage order h authReason).mono (Nat.zero_le _)

theorem Body.grows_encodeMessage (body : Body) : Grows (body.encodeMessage order h) := by
  cases body with
  | connect msg => exact msg.grows_encodeMessage order h
  | connAck sessionPresent returnCode =>
      exact (grows_put _).seq ((grows_put _).seq (h.grows_encodeBlock order))
  | ack reasonCode => exact h.grows_encodePacketID (h.grows_encodeReason order reasonCode)
  | subscribe topics =>
      refine h.grows_encodePacketID ((h.grows_encodeBlock order).thenEach ?_ topics)
      rintro ⟨topic, ops⟩
      exact (grows_writeLPBytes topic).seq (grows_put _)
  | subAck returnCodes =>
      exact h.grows_encodePacketID
        ((h.grows_encodeBlock order).thenEach (fun _ => grows_put _) returnCodes)
  | unSubscribe topics => exact UnSubscribe.grows_encodeMessage h topics
  | unSubAck returnCodes => exact h.grows_encodePacketID (h.grows_encodeBlock order)
  | pingReq | pingResp => exact grows_skip
  | disconnect reasonCode => exact h.grows_encodeReason order reasonCode
  | auth authReason => exact Auth.grows_encodeMessage order h authReason

/-- A PUBLISH is refused, or its payload is copied behind the fields of its header. -/
theorem Publish.encodeMessage_cases (msg : Publish) :
    (∃ reason, msg.encodeMessage order = .fail reason) ∨
      ∃ front, msg.encodeMessage order = .seq front (.copy msg.payload) ∧
        Leaves msg.size front (msg.version = ProtocolV50 ∧ msg.properties.fullLen = 1) ∧
        Grows front := by
  unfold Publish.encodeMessage
  split
  · exact .inl ⟨_, rfl⟩
  split
  · exact .inl ⟨_, rfl⟩
  split
  · exact .inl ⟨_, rfl⟩
  split
  · exact .inl ⟨_, rfl⟩
  right
  refine ⟨.seq (writeLPBytes msg.topic) (.seq (if msg.qos ≠ QoS0 then
      .copy ((msg.packetID.map putUint16).getD []) else .skip)
    (if msg.version = ProtocolV50 then msg.properties.encode order else .skip)), ?_, ?_, ?_⟩
  · rw [seq_assoc, seq_assoc]
  · have block : Leaves 0
        (if msg.version = ProtocolV50 then msg.properties.encode order else .skip)
        (msg.version = ProtocolV50 ∧ msg.properties.fullLen = 1) := by
      split
      · rename_i five
        apply (msg.properties.leaves_encode order).congr
        simp [five]
      · rename_i old
        apply leaves_skip.congr
        simp [old]
    have id : Leaves (msg.size - (2 + msg.topic.length)) (if msg.qos ≠ QoS0 then
        .copy ((msg.packetID.map putUint16).getD []) else .skip : Writer PacketError) False := by
      split
      · rename_i ack
        have counted : msg.qos ≠ 0 := ack
        apply Prints.leaves
        apply prints_copy
        have short : ((msg.packetID.map putUint16).getD []).length ≤ 2 := by
          cases msg.packetID <;> simp
        rw [Publish.size, if_pos counted]
        omega
      · exact leaves_skip
    rcases id.behind block with ⟨mask, prints, holes⟩
    refine ⟨.full (lpBytes msg.topic) ++ mask, (prints_writeLPBytes _).seq ?_, by simp [holes]⟩
    rwa [Mask.length_full, length_lpBytes]
  · apply (grows_writeLPBytes _).seq
    apply Grows.seq
    · split
      · exact grows_copy _
      · exact grows_skip
    · split
      · exact msg.properties.grows_encode order
      · exact grows_skip

/-- The fixed header in front of a message. -/
theorem leaves_framed {first : UInt8} {field : Bytes} {least : ℕ} {body : Writer PacketError}
    {hole : Prop} (leaves : Leaves least body hole) :
    Leaves (1 + field.length + least) (Writer.seq (.put [first]) (.seq (.put field) body)) hole := by
  rcases leaves with ⟨mask, prints, holes⟩
  refine ⟨.full [first] ++ (.full field ++ mask), (prints_put _).seq ((prints_put _).seq ?_), ?_⟩
  · apply prints.mono
    simp only [Mask.length_full, List.length_cons, List.length_nil]
    omega
  · simp [holes]

end Packets

namespace Message

variable {order : MapOrder PropertyEntry} {m : Message} {remLen : ℕ}

theorem encodeTo_eq_ok {dest written : Bytes} {n : ℕ} (remaining : m.remainingLength = .ok remLen) :
    m.encodeTo order dest = .ok (written, n) ↔
      1 + (putUvarint remLen).length + m.size ≤ dest.length ∧
        Writer.seq (.put [(m.mType.code <<< 4) ||| m.mFlags])
          (.seq (.put (putUvarint remLen)) (m.encodeMessage order)) dest = .ok (written, n) := by
  have short := (remainingLength_eq_ok remaining).1
  have width : uvarintCalc (UInt32.ofNat remLen) = (putUvarint remLen).length := by
    rw [uvarintCalc_eq_length, UInt32.toNat_ofNat', Nat.mod_eq_of_lt (by omega)]
  simp only [encodeTo, remaining, width]
  split
  · rename_i few
    simp only [reduceCtorEq, false_iff, not_and]
    omega
  · rename_i enough
    simp [not_lt.mp enough]

theorem exists_remainingLength {dest written : Bytes} {n : ℕ}
    (encoded : m.encodeTo order dest = .ok (written, n)) :
    ∃ remLen, m.remainingLength = .ok remLen := by
  cases remaining : m.remainingLength with
  | error e => simp [encodeTo, remaining] at encoded
  | ok remLen => exact ⟨remLen, rfl⟩

theorem grows_encodeMessage : Grows (m.encodeMessage order) := by
  cases m with
  | publish msg =>
      change Grows (msg.encodeMessage order)
      rcases msg.encodeMessage_cases order with ⟨reason, refused⟩ | ⟨front, whole, -, grows⟩
      · rw [refused]
        exact grows_fail reason
      · rw [whole]
        exact grows.seq (grows_copy _)
  | control h body => exact body.grows_encodeMessage order h

theorem grows_encodeTo (remaining : m.remainingLength = .ok remLen) : Grows (m.encodeTo order) := by
  intro dest other written count longer encoded
  rcases (encodeTo_eq_ok remaining).mp encoded with ⟨enough, run⟩
  have grows := (grows_put [(m.mType.code <<< 4) ||| m.mFlags]).seq
    ((grows_put (putUvarint remLen)).seq (@grows_encodeMessage order m))
  rcases grows dest other written count longer run with ⟨again, more, runAgain, rest⟩
  exact ⟨again, more, (encodeTo_eq_ok remaining).mpr ⟨by omega, runAgain⟩, rest⟩

/-- What `Encode` shows has a hole exactly where an empty block is skipped. -/
theorem shows_encodeTo (remaining : m.remainingLength = .ok remLen) :
    ∃ mask more, Shows 0 (m.encodeTo order) mask more ∧ (none ∈ mask ↔ m.LeavesLength) := by
  have guarded : ∀ mask more, Shows (1 + (putUvarint remLen).length + m.size)
      (Writer.seq (.put [(m.mType.code <<< 4) ||| m.mFlags])
        (.seq (.put (putUvarint remLen)) (m.encodeMessage order))) mask more →
      Shows 0 (m.encodeTo order) mask more := by
    intro mask more shows_ dest written count _ encoded
    rcases (encodeTo_eq_ok remaining).mp encoded with ⟨enough, run⟩
    exact shows_ dest written count enough run
  cases m with
  | control h body =>
      rcases leaves_framed (body.leaves_encodeMessage order h) with ⟨mask, prints, holes⟩
      exact ⟨mask, [], guarded _ _ prints.shows, holes⟩
  | publish msg =>
      rcases msg.encodeMessage_cases order with ⟨reason, refused⟩ | ⟨front, whole, leaves, -⟩
      · rcases leaves_framed (leaves_fail reason) with ⟨mask, prints, holes⟩
        refine ⟨mask, [], guarded _ _ ?_, holes⟩
        rw [encodeMessage, refused]
        exact prints.shows
      · rcases leaves_framed leaves with ⟨mask, prints, holes⟩
        refine ⟨mask, msg.payload, guarded _ _ ?_, holes⟩
        have shown := prints.shows_copy msg.payload
        rw [seq_assoc, seq_assoc] at shown
        rw [encodeMessage, whole]
        exact shown

/-- What a packet is encoded to does not depend on the slice, unless its type always has a property
block and this block is empty. -/
theorem overwrites_iff {dest written : Bytes} {n : ℕ}
    (encoded : m.encodeTo order dest = .ok (written, n)) :
    m.Overwrites order ↔ ¬m.LeavesLength := by
  rcases exists_remainingLength encoded with ⟨remLen, remaining⟩
  rcases @shows_encodeTo order m remLen remaining with ⟨mask, more, shown, holes⟩
  rw [← holes]
  constructor
  · intro law hole
    -- two slices with room for everything, one full of zeros and one full of ones
    have filled : ∀ old : UInt8, ∃ again count,
        m.encodeTo order (List.replicate (dest.length + (mask.length + more.length)) old) =
          .ok (again, count) := by
      intro old
      have longer : dest.length ≤
          (List.replicate (dest.length + (mask.length + more.length)) old).length := by
        rw [List.length_replicate]
        omega
      rcases grows_encodeTo remaining _ _ written n longer encoded with ⟨again, count, run, -⟩
      exact ⟨again, count, run⟩
    rcases filled 0 with ⟨zeros, zerosCount, zerosRun⟩
    rcases filled 1 with ⟨ones, onesCount, onesRun⟩
    rcases shown _ _ _ (Nat.zero_le _) zerosRun with ⟨enough, bound, zerosShow⟩
    rcases shown _ _ _ (Nat.zero_le _) onesRun with ⟨-, -, onesShow⟩
    simp only [List.length_replicate] at zerosShow onesShow
    have same := law _ _ _ zerosRun _ _ _ _ _ _ (by rw [List.length_replicate]; omega)
      (by rw [List.length_replicate]; omega) zerosRun onesRun
    have same := congrArg (List.take mask.length) same
    rw [List.take_take, List.take_take, Nat.min_eq_left enough,
      zerosShow (by omega) mask.length (by omega) (by omega),
      onesShow (by omega) mask.length (by omega) (by omega), List.take_left', List.take_left'] at same
    · exact covered_ne hole (by omega) (by decide) same
    · exact length_covered (by rw [List.length_replicate]; omega)
    · exact length_covered (by rw [List.length_replicate]; omega)
  · intro whole base _ n run left right leftWritten rightWritten leftCount rightCount leftRoom rightRoom
      leftRun rightRun
    rcases shown _ _ _ (Nat.zero_le _) run with ⟨enough, bound, -⟩
    have leftShow := (shown _ _ _ (Nat.zero_le _) leftRun).2.2
    have rightShow := (shown _ _ _ (Nat.zero_le _) rightRun).2.2
    rw [leftShow (by omega) n bound leftRoom, rightShow (by omega) n bound rightRoom,
      covered_eq whole (enough.trans leftRoom) (enough.trans rightRoom)]

/-- A CONNACK of V5.0 with one property. -/
def connAckSample : Message :=
  .control { Header.new ProtocolV50 .CONNACK with
    properties := ⟨(∅ : PropertyMap).insert PropertyReceiveMaximum (.short 9), 3⟩ } (.connAck false 0)

theorem connAckSample_overwrites : ∃ written,
    connAckSample.encodeTo (.insertion _) (List.replicate 9 0xFF) = .ok (written, 8) ∧
      connAckSample.Overwrites (.insertion _) := by
  have encoded : connAckSample.encodeTo (.insertion _) (List.replicate 9 0xFF) =
      .ok ([0x20, 6, 0, 0, 3, 0x21, 0, 9, 0xFF], 8) := by decide
  refine ⟨_, encoded, (overwrites_iff encoded).mpr ?_⟩
  rintro ⟨-, one⟩
  exact absurd one (by decide)

/-- An UNSUBACK of V5.0 without properties. -/
def unSubAckSample : Message :=
  .control { Header.new ProtocolV50 .UNSUBACK with packetID := some 7 } (.unSubAck [])

/-- The last byte of the packet is the one that was there. -/
theorem unSubAckSample_not_overwrites : ¬unSubAckSample.Overwrites (.insertion _) := by
  have encoded : ∀ old : UInt8, unSubAckSample.encodeTo (.insertion _) [0, 0, 0, 0, old] =
      .ok ([0xB0, 3, 0, 7, old], 5) := fun _ => rfl
  intro law
  have same := law _ _ _ (encoded 0) _ _ _ _ _ _ (by decide) (by decide) (encoded 0) (encoded 1)
  revert same
  decide

end Message

end VolantMQ.Packet
