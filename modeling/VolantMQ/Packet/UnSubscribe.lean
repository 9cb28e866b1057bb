import VolantMQ.Packet.Frame

/-!
# What an encoded UNSUBSCRIBE decodes to

The decoder of an UNSUBSCRIBE counts the remaining length down by hand and takes off one byte more
than it has read for every filter, as if there were an options byte behind it. It therefore stops
as soon as there are no more bytes left than it has read filters, and the last filters of a packet
are lost unless the very last one is long enough to make up for all the bytes taken off before.
-/

namespace VolantMQ.Packet

open Lib

namespace UnSubscribe

/-- `UnSubscribe.AddTopic` -/
def addTopic (topics : List GoString) (topic : GoString) : Except PacketError (List GoString) :=
  if !utf8Valid topic then .error .ErrMalformedTopic else .ok (topics ++ [topic])

/-- `New`, `SetPacketID` and an `AddTopic` for every filter. -/
def build (v : ProtocolVersion) (id : IDType) (filters : List GoString) :
    Except PacketError Message :=
  (filters.foldlM addTopic []).map fun topics =>
    .control { Header.new v .UNSUBSCRIBE with packetID := some id } (.unSubscribe topics)

/-- The bytes of a list of filters. -/
def filterBytes (filters : List GoString) : Bytes := filters.flatMap lpBytes

@[simp]
theorem filterBytes_nil : filterBytes [] = [] := rfl

@[simp]
theorem filterBytes_cons (filter : GoString) (filters : List GoString) :
    filterBytes (filter :: filters) = lpBytes filter ++ filterBytes filters := rfl

theorem filterBytes_append (left right : List GoString) :
    filterBytes (left ++ right) = filterBytes left ++ filterBytes right := by simp [filterBytes]

theorem length_filterBytes (filters : List GoString) :
    (filterBytes filters).length = (filters.map fun t => 2 + t.length).sum := by
  induction filters with
  | nil => rfl
  | cons filter filters ih => simp [ih]

/-- What the loop has read when it stops, and how far the counter was before the last filter. -/
theorem decodeTopics_eq_ok {rounds : ℕ} {remLen : Int} {acc topics : List GoString} {src : Bytes}
    {n : ℕ} (run : (decodeTopics rounds remLen acc).run src = .ok (topics, n)) :
    ∃ read, topics = acc ++ read ∧ src.take n = filterBytes read ∧ n ≤ src.length ∧
      (∀ t ∈ read, utf8Valid t = true ∧ t.length ≤ MaxLPString) ∧
      ∀ front last, read = front ++ [last] →
        ((filterBytes front).length : Int) + front.length < remLen := by
  induction rounds generalizing remLen acc src n with
  | zero =>
      simp only [decodeTopics, Reader.run_pure, Except.ok.injEq, Prod.mk.injEq] at run
      refine ⟨[], by simp [run.1], by simp [← run.2], by omega, by simp, ?_⟩
      intro front last empty
      simp at empty
  | succ rounds ih =>
      simp only [decodeTopics] at run
      split at run
      · simp only [Reader.run_pure, Except.ok.injEq, Prod.mk.injEq] at run
        refine ⟨[], by simp [run.1], by simp [← run.2], by omega, by simp, ?_⟩
        intro front last empty
        simp at empty
      · rename_i more
        simp only [reject, Reader.run_bind_eq_ok, Reader.run_check_eq_ok] at run
        rcases run with ⟨⟨t, a⟩, _, b, filterRun, ⟨valid, run⟩, rfl⟩
        simp only [Bool.not_eq_true, Bool.not_eq_false'] at valid
        rcases Reader.run_counted_eq_ok.mp filterRun with ⟨filterRun, rfl⟩
        rcases ih run with ⟨read, rfl, taken, within, wellFormed, before⟩
        have ending := readLPBytes_eq_ok filterRun
        have filterTaken := take_of_readLPBytes filterRun
        rw [List.length_drop] at within
        refine ⟨t :: read, by simp, ?_, by omega, ?_, ?_⟩
        · rw [List.take_add, filterTaken, taken, filterBytes_cons]
        · intro other member
          rcases List.mem_cons.mp member with rfl | later
          · exact ⟨valid, ending.1⟩
          · exact wellFormed other later
        · intro front last split
          cases front with
          | nil => simpa using more
          | cons first front =>
              simp only [List.cons_append, List.cons.injEq] at split
              rcases split with ⟨rfl, rest⟩
              have earlier := before front last rest
              simp only [filterBytes_cons, List.length_append, length_lpBytes, List.length_cons]
              push_cast
              omega

/-- One round of the loop. -/
theorem run_decodeTopics_succ {t : GoString} {rounds : ℕ} {remLen : Int} {acc : List GoString}
    (valid : utf8Valid t = true) (fits : t.length ≤ MaxLPString) (left : 0 < remLen)
    (rest : Bytes) :
    (decodeTopics (rounds + 1) remLen acc).run (lpBytes t ++ rest) =
      ((decodeTopics rounds (remLen - (2 + t.length : ℕ) - 1) (acc ++ [t])).run rest).map
        fun (topics, n) => (topics, 2 + t.length + n) := by
  have read : lpField.run (lpBytes t ++ rest) = .ok (t, 2 + t.length) :=
    readLPBytes_lpBytes fits rest
  have rejoined : (lpBytes t ++ rest).drop (2 + t.length) = rest := by
    rw [← length_lpBytes, List.drop_left]
  simp only [decodeTopics, if_neg (not_le.mpr left)]
  rw [Reader.run_bind_of_ok (Reader.run_counted_of_ok read), rejoined]
  simp only [valid, Bool.not_true, Bool.false_eq_true, if_false]

theorem run_decodeTopics_over {rounds : ℕ} {remLen : Int} {acc : List GoString} (finished : remLen ≤ 0)
    (src : Bytes) : (decodeTopics rounds remLen acc).run src = .ok (acc, 0) := by
  cases rounds with
  | zero => rfl
  | succ rounds =>
      simp only [decodeTopics, if_pos finished]
      rfl

/-- The loop reads all filters if the counter lasts until the last one. -/
theorem run_decodeTopics {filters : List GoString} {last : GoString} {rounds : ℕ} {remLen : Int}
    {acc : List GoString} (valid : ∀ t ∈ filters ++ [last], utf8Valid t = true)
    (fits : ∀ t ∈ filters ++ [last], t.length ≤ MaxLPString)
    (lasts : ((filterBytes filters).length : Int) + filters.length < remLen)
    (ends : remLen ≤ (filterBytes (filters ++ [last])).length) (enough : remLen ≤ rounds) :
    (decodeTopics rounds remLen acc).run (filterBytes (filters ++ [last])) =
      .ok (acc ++ (filters ++ [last]), (filterBytes (filters ++ [last])).length) := by
  induction filters generalizing rounds remLen acc with
  | nil =>
      simp only [filterBytes_nil, List.length_nil, Nat.cast_zero, zero_add] at lasts
      simp only [List.nil_append, filterBytes_cons, filterBytes_nil, List.append_nil,
        length_lpBytes] at ends ⊢
      obtain ⟨rounds, rfl⟩ : ∃ before, rounds = before + 1 := ⟨rounds - 1, by omega⟩
      have read := @run_decodeTopics_succ last rounds remLen acc (valid last (by simp))
        (fits last (by simp)) lasts []
      rw [List.append_nil] at read
      rw [read, run_decodeTopics_over (by omega)]
      rfl
  | cons t filters ih =>
      simp only [filterBytes_cons, List.length_append, length_lpBytes, List.length_cons] at lasts
      simp only [List.cons_append, filterBytes_cons, List.length_append, length_lpBytes] at ends ⊢
      push_cast at lasts ends
      obtain ⟨rounds, rfl⟩ : ∃ before, rounds = before + 1 := ⟨rounds - 1, by omega⟩
      have next := @ih rounds (remLen - (2 + t.length : ℕ) - 1) (acc ++ [t])
        (fun other member => valid other (by simp [member]))
        (fun other member => fits other (by simp [member]))
        (by push_cast; omega) (by push_cast; omega) (by push_cast at enough ⊢; omega)
      rw [run_decodeTopics_succ (valid t (by simp)) (fits t (by simp)) (by omega), next]
      simp [Except.map]

variable {order : MapOrder PropertyEntry} {v : ProtocolVersion} {id : IDType}
  {filters : List GoString}

/-- The header of the packet that `build` makes. -/
def header (v : ProtocolVersion) (id : IDType) : Header :=
  { Header.new v .UNSUBSCRIBE with packetID := some id }

theorem foldlM_addTopic (valid : ∀ t ∈ filters, utf8Valid t = true) (acc : List GoString) :
    filters.foldlM addTopic acc = .ok (acc ++ filters) := by
  induction filters generalizing acc with
  | nil => simp [pure, Except.pure]
  | cons t filters ih =>
      have first : addTopic acc t = .ok (acc ++ [t]) := by simp [addTopic, valid t (by simp)]
      rw [List.foldlM_cons, first]
      change filters.foldlM addTopic (acc ++ [t]) = _
      rw [ih fun other member => valid other (by simp [member])]
      simp

theorem build_eq (valid : ∀ t ∈ filters, utf8Valid t = true) :
    build v id filters = .ok (.control (header v id) (.unSubscribe filters)) := by
  rw [build, foldlM_addTopic valid]
  rfl

theorem emits_encodeMessage (nonempty : filters ≠ [])
    (fits : ∀ t ∈ filters, t.length ≤ MaxLPString) :
    Emits Fresh (Message.encodeMessage order (.control (header v id) (.unSubscribe filters)))
      (putUint16 id ++ filterBytes filters) := by
  have inherited : ∀ dest count, Fresh dest → Fresh (dest.drop count) :=
    fun _ count isFresh => isFresh.drop count
  have some : ¬filters.length = 0 := by simpa using nonempty
  change Emits Fresh (if filters.length = 0 then _ else _) _
  rw [if_neg some]
  exact (emits_copy (putUint16 id)).seq inherited
    (Emits.each inherited fun t member => emits_writeLPBytes (fits t member))

theorem length_body : (putUint16 id ++ filterBytes filters).length =
    (Message.control (header v id) (.unSubscribe filters)).size := by
  rw [List.length_append, length_filterBytes]
  rfl

/-- The message decoder on the body of a packet. -/
theorem run_decodeMessage (remLen : ℕ) :
    (decodeMessage (Header.new v .UNSUBSCRIBE) remLen).run (putUint16 id ++ filterBytes filters) =
      match (decodeTopics ((remLen : Int) - 2).toNat (remLen - 2) []).run (filterBytes filters) with
      | .error fault => .error fault
      | .ok (topics, n) =>
          if topics.length = 0 then .error (.error (.reason (filterReason v)))
          else .ok (.control (header v id) (.unSubscribe topics), 2 + n) := by
  have idRun : packetIDField.run (putUint16 id ++ filterBytes filters) = .ok (id, 2) :=
    reads_packetIDField id (filterBytes filters)
  have dropped : (putUint16 id ++ filterBytes filters).drop 2 = filterBytes filters := rfl
  unfold decodeMessage
  rw [Reader.run_bind_of_ok (Reader.run_counted_of_ok idRun), dropped]
  simp only [Nat.cast_ofNat]
  cases loop : (decodeTopics ((remLen : Int) - 2).toNat (remLen - 2) []).run
      (filterBytes filters) with
  | error fault =>
      rw [Reader.run_bind_of_error loop]
      rfl
  | ok result =>
      rcases result with ⟨topics, n⟩
      rw [Reader.run_bind_of_ok loop]
      simp only
      split <;> rfl

/-- The list of filters survives encoding and decoding, and all bytes are consumed. -/
def RoundTrips (order : MapOrder PropertyEntry) (v : ProtocolVersion) (id : IDType)
    (filters : List GoString) : Prop :=
  ∃ msg bytes h, build v id filters = .ok msg ∧ msg.encode order = .ok bytes ∧
    decode v bytes = .ok (.control h (.unSubscribe filters), bytes.length)

/-- `Decode` on the bytes of a packet whose length field announces no more than there is. -/
theorem decode_eq_ok_iff {remLen : ℕ} (short : remLen ≤ 268435455)
    (within : remLen ≤ 2 + (filterBytes filters).length) :
    (∃ h, decode v ((Message.control (header v id) (.unSubscribe filters)).firstByte ::
        (putUvarint remLen ++ (putUint16 id ++ filterBytes filters))) =
      .ok (.control h (.unSubscribe filters),
        1 + (putUvarint remLen).length + (2 + (filterBytes filters).length))) ↔
      filters ≠ [] ∧
        (decodeTopics ((remLen : Int) - 2).toNat (remLen - 2) []).run (filterBytes filters) =
          .ok (filters, (filterBytes filters).length) := by
  rcases @decode_announced v (Message.control (header v id) (.unSubscribe filters)).firstByte
    (putUint16 id ++ filterBytes filters) remLen short (by simpa using within) with
    ⟨f, first, field, length, decoded⟩
  have announced : f.mType = .UNSUBSCRIBE := by
    rw [Frame.mType, first]
    exact (ofFirstByte_default .UNSUBSCRIBE).1
  have flags : f.mFlags = PacketType.UNSUBSCRIBE.defaultFlags := by
    rw [Frame.mFlags, first]
    exact (ofFirstByte_default .UNSUBSCRIBE).2
  have reader : f.reader v = decodeMessage (Header.new v .UNSUBSCRIBE) remLen := by
    simp only [Frame.reader, announced, newMessage, flags, length]
    rfl
  rw [decoded, reader, run_decodeMessage]
  constructor
  · rintro ⟨h, ended⟩
    rcases Frame.settle_eq_ok.mp ended with ⟨k, run, count⟩
    rw [field] at count
    split at run
    · simp at run
    · rename_i topics n loop
      split at run
      · simp at run
      · rename_i some
        simp only [Except.ok.injEq, Prod.mk.injEq, Message.control.injEq,
          Body.unSubscribe.injEq] at run
        rcases run with ⟨⟨-, rfl⟩, rfl⟩
        refine ⟨by simpa using some, ?_⟩
        rw [loop, show n = (filterBytes topics).length by omega]
  · rintro ⟨nonempty, loop⟩
    refine ⟨header v id, Frame.settle_eq_ok.mpr ⟨2 + (filterBytes filters).length, ?_, ?_⟩⟩
    · simp [loop, nonempty]
    · rw [field]

/-- The list of filters survives exactly if the packet is not too long and there are no more than
two filters more than the last one has bytes. -/
theorem roundTrips_iff (order : MapOrder PropertyEntry) (v : ProtocolVersion) (id : IDType)
    (filters : List GoString) (nonempty : filters ≠ [])
    (valid : ∀ t ∈ filters, utf8Valid t = true) (fits : ∀ t ∈ filters, t.length ≤ MaxLPString) :
    RoundTrips order v id filters ↔
      2 + (filters.map fun t => 2 + t.length).sum ≤ 268435455 ∧
        filters.length ≤ (filters.getLast nonempty).length + 2 := by
  have emits := @emits_encodeMessage order v id filters nonempty fits
  have length := @length_body v id filters
  have size : (Message.control (header v id) (.unSubscribe filters)).size =
      2 + (filterBytes filters).length := by
    rw [← length, List.length_append]
    rfl
  have split := List.dropLast_append_getLast nonempty
  have bytes : (filterBytes filters).length = (filterBytes filters.dropLast).length +
      (2 + (filters.getLast nonempty).length) := by
    conv_lhs => rw [← split, filterBytes_append]
    simp
  have count : filters.length = filters.dropLast.length + 1 := by
    conv_lhs => rw [← split]
    simp
  have lastFits := fits _ (List.getLast_mem nonempty)
  unfold MaxLPString at lastFits
  unfold RoundTrips
  simp only [build_eq valid, Except.ok.injEq, exists_and_left, exists_eq_left', ← length_filterBytes]
  constructor
  · rintro ⟨wire, encoded, h, decoded⟩
    rcases Message.encode_eq_ok encoded with ⟨remLen, -, -, remaining, -, -⟩
    have bound := Message.remainingLength_eq_ok remaining
    rw [Message.encode_eq remaining emits length, Except.ok.injEq] at encoded
    subst encoded
    have total : (Message.firstByte (.control (header v id) (.unSubscribe filters)) ::
        (putUvarint remLen ++ (putUint16 id ++ filterBytes filters))).length =
        1 + (putUvarint remLen).length + (2 + (filterBytes filters).length) := by
      simp only [List.length_cons, List.length_append, length_putUint16]
      omega
    rw [total] at decoded
    rw [size] at bound
    have loop := ((decode_eq_ok_iff bound.1 (by omega)).mp ⟨h, decoded⟩).2
    rcases decodeTopics_eq_ok loop with ⟨read, same, -, -, -, before⟩
    -- a length that has wrapped around lets the loop stop long before the last filter
    have lasts := before filters.dropLast (filters.getLast nonempty) (by rw [split, same]; rfl)
    omega
  · rintro ⟨short, few⟩
    have within : (Message.control (header v id) (.unSubscribe filters)).size ≤ 268435455 := by
      omega
    have loop := @run_decodeTopics filters.dropLast (filters.getLast nonempty)
      (((2 + (filterBytes filters).length : ℕ) : Int) - 2).toNat
      ((2 + (filterBytes filters).length : ℕ) - 2) []
      (by rwa [split]) (by rwa [split]) (by omega) (by rw [split]; omega) (by omega)
    rw [split] at loop
    rcases (decode_eq_ok_iff short (Nat.le_refl _)).mpr ⟨nonempty, loop⟩ with ⟨h, decoded⟩
    have encoded := Message.encode_eq (Message.remainingLength_of_short within) emits length
    rw [size] at encoded
    refine ⟨_, encoded, h, ?_⟩
    rw [decoded]
    simp only [List.length_cons, List.length_append, length_putUint16, Except.ok.injEq,
      Prod.mk.injEq, true_and]
    omega

theorem roundTrips_two : RoundTrips (.insertion _) ProtocolV311 7 [ascii "a/b", ascii "c"] :=
  (roundTrips_iff (.insertion _) ProtocolV311 7 [ascii "a/b", ascii "c"] (by decide) (by decide)
    (by decide)).mpr (by decide)

/-- Of four filters of one character each only three come back. -/
theorem fourth_filter_lost :
    ¬RoundTrips (.insertion _) ProtocolV311 7 [ascii "a", ascii "b", ascii "c", ascii "d"] := by
  rintro ⟨msg, bytes, h, built, encoded, decoded⟩
  have made : build ProtocolV311 7 [ascii "a", ascii "b", ascii "c", ascii "d"] =
      .ok (.control (header ProtocolV311 7)
        (.unSubscribe [ascii "a", ascii "b", ascii "c", ascii "d"])) := rfl
  have wire : Message.encode (.insertion _) (.control (header ProtocolV311 7)
      (.unSubscribe [ascii "a", ascii "b", ascii "c", ascii "d"])) =
      .ok [0xA2, 14, 0, 7, 0, 1, 97, 0, 1, 98, 0, 1, 99, 0, 1, 100] := by rfl
  have read : (decode ProtocolV311
      [0xA2, 14, 0, 7, 0, 1, 97, 0, 1, 98, 0, 1, 99, 0, 1, 100]).map Prod.snd = .ok 13 := by rfl
  rw [made, Except.ok.injEq] at built
  rw [← built, wire, Except.ok.injEq] at encoded
  rw [← encoded] at decoded
  simp [decoded, Except.map] at read

end UnSubscribe

end VolantMQ.Packet
