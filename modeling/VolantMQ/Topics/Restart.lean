import VolantMQ.Packet.Frame
import VolantMQ.Topics.Contents

/-!
# Retained messages across a restart

`Close` gives the retained messages to the persistence backend, and the provider that
`NewMemProvider` creates next reads them from there. The backend returns from `Load` what was
given to `Store`. Both ends go through `packet.Encode` and `packet.Decode`, but the reader expects
one byte more: it takes the first byte of an entry for the protocol version of the packet behind
it. What it decodes as a packet is then an encoded PUBLISH without its first byte, and this file
shows that no such bytes are a PUBLISH.
-/

namespace VolantMQ.Packet

open Lib

namespace Publish

theorem encodeMessage_starts {msg : Publish} {order : MapOrder PropertyEntry} {dest body : Bytes}
    {n : ℕ} (room : 2 + msg.topic.length ≤ dest.length)
    (written : msg.encodeMessage order dest = .ok (body, n)) :
    ∃ rest, body = lpBytes msg.topic ++ rest := by
  simp only [encodeMessage] at written
  split at written
  · simp [Writer.fail] at written
  · split at written
    · simp [Writer.fail] at written
    · split at written
      · simp [Writer.fail] at written
      · split at written
        · simp [Writer.fail] at written
        · by_cases fits : msg.topic.length ≤ MaxLPString
          · have topic : Emits (fun _ => True) (writeLPBytes msg.topic) (lpBytes msg.topic) :=
              emits_writeLPBytes fits
            rw [topic.run_seq _ trivial (by rw [length_lpBytes]; exact room)] at written
            rcases map_eq_ok.mp written with ⟨pair, -, same⟩
            exact ⟨pair.1, (congrArg Prod.fst same).symm⟩
          · simp [Writer.seq, writeLPBytes, Nat.lt_of_not_le fits] at written

/-- An encoded PUBLISH starts with its type, its length and its topic. -/
theorem encode_starts {msg : Publish} {order : MapOrder PropertyEntry} {buf : Bytes}
    (encoded : msg.encode order = .ok buf) :
    ∃ rest, buf = (Message.publish msg).firstByte ::
      (putUvarint (msg.size % 2 ^ 32) ++ (lpBytes msg.topic ++ rest)) := by
  rw [← Message.encode_publish] at encoded
  rcases Message.encode_eq_ok encoded with ⟨remLen, body, count, remaining, written, rfl⟩
  have length : remLen = msg.size % 2 ^ 32 := (Message.remainingLength_eq_ok remaining).2
  have room : 2 + msg.topic.length ≤
      (List.replicate (Message.publish msg).size (0 : UInt8)).length := by
    simp only [List.length_replicate, Message.size, size]
    omega
  rcases encodeMessage_starts room written with ⟨rest, starts⟩
  exact ⟨rest, by rw [starts, length]⟩

/-- A PUBLISH with a topic does not fit into a remaining length of zero. -/
theorem decodeMessage_zero (msg : Publish) (src : Bytes) (result : Publish × ℕ) :
    msg.decodeMessage 0 src ≠ .ok result := by
  intro decoded
  simp only [decodeMessage] at decoded
  split at decoded
  · simp [rejectWith] at decoded
  · split at decoded
    · simp [rejectWith] at decoded
    · split at decoded
      · simp at decoded
      · rename_i buf n topic
        have width := (readLPBytes_eq_ok topic).2.1
        split at decoded
        · simp at decoded
        · split at decoded
          · simp [rejectWith] at decoded
          · split at decoded
            · simp at decoded
            · simp only [decodePayload] at decoded
              rw [if_pos (by omega)] at decoded
              simp [rejectWith] at decoded

theorem decodeHeader_zero (v : ProtocolVersion) (first : UInt8) (rest : Bytes)
    (result : Publish × ℕ) : decodeHeader v (first :: 0 :: rest) ≠ .ok result := by
  intro decoded
  have length : uvarint (0 :: rest) = (0, 1) := rfl
  have empty : toInt32 (0 : UInt32).toNat = 0 := rfl
  simp only [decodeHeader, length, empty] at decoded
  split at decoded
  · simp [rejectWith] at decoded
  · rw [if_neg (by decide), if_neg (by omega)] at decoded
    rcases map_eq_ok.mp decoded with ⟨pair, read, -⟩
    exact decodeMessage_zero _ _ _ read

end Publish

theorem ofFirstByte_publish {byte : UInt8} (announced : PacketType.ofFirstByte byte = .PUBLISH) :
    byte.toNat < 64 := by
  have table : ∀ value : Fin 256, PacketType.ofFirstByte (UInt8.ofNat value.val) = .PUBLISH →
      value.val < 64 := by decide +kernel
  have found := table ⟨byte.toNat, byte.toNat_lt⟩
  rw [UInt8.ofNat_toNat] at found
  exact found announced

/-- No PUBLISH is announced with a remaining length of zero. -/
theorem decode_zero (v : ProtocolVersion) (first : UInt8) (rest : Bytes) (m : Publish) (n : ℕ) :
    decode v (first :: 0 :: rest) ≠ .ok (.publish m, n) := by
  intro decoded
  have announced : PacketType.PUBLISH = .ofFirstByte first := (decode_mType decoded).1
  rw [decode_publish v (0 :: rest) announced.symm, decodePublish] at decoded
  cases read : Publish.decodeHeader v (first :: 0 :: rest) with
  | error fault => cases fault <;> simp [read, Except.map] at decoded
  | ok result => exact Publish.decodeHeader_zero v first rest result read

/-- Without its first byte an encoded PUBLISH is no PUBLISH any more: either its length announces
another type, or the topic behind it does not fit into the length it starts with. -/
theorem decode_shifted {msg : Publish} {order : MapOrder PropertyEntry} {first : UInt8} {rest : Bytes}
    (small : msg.size < 2 ^ 32) (encoded : msg.encode order = .ok (first :: rest))
    (v : ProtocolVersion) (m : Publish) (n : ℕ) : decode v rest ≠ .ok (.publish m, n) := by
  rcases Publish.encode_starts encoded with ⟨tail, equation⟩
  rw [List.cons.injEq, Nat.mod_eq_of_lt small] at equation
  rw [equation.2, putUvarint, uvarintBytes]
  split
  · -- the first byte of a long length field has its highest bit set
    rename_i long
    intro decoded
    have announced := ofFirstByte_publish (decode_mType decoded).1.symm
    rw [toNat_or_0x80] at announced
    omega
  · -- a short length leaves the high byte of the topic length zero, which is read as the length
    rename_i short
    have topic : msg.topic.length < 256 := by
      simp only [Publish.size] at short
      omega
    have high : UInt8.ofNat ((UInt16.ofNat msg.topic.length).toNat / 256) = 0 := by
      rw [UInt16.toNat_ofNat', Nat.mod_eq_of_lt (by omega), Nat.div_eq_of_lt topic]
      rfl
    simp only [lpBytes, putUint16, high, List.cons_append, List.nil_append]
    exact decode_zero v _ _ m n

end VolantMQ.Packet

namespace VolantMQ.Topics

open Lib Packet

/-- How a call can end without a result. -/
inductive Halt where
  | panic
  | blocked
  deriving DecidableEq, Repr

/-- The fields of `persistence.PersistedPacket` that the provider uses. The text `ExpireAt` has the
format `time.RFC3339`, which has no fractions of a second; here it is the number of seconds, and
the empty text is `none`. -/
structure PersistedPacket where
  Data : Bytes
  ExpireAt : Option Int
  deriving DecidableEq, Repr

/-- `tm.Format(time.RFC3339)` -/
def formatRFC3339 (tm : Time) : Int := tm / 1000000000

/-- `time.Parse(time.RFC3339, ·)` -/
def parseRFC3339 (seconds : Int) : Time := seconds * 1000000000

/-- The loop of `Close` over the packets it found. -/
def encodeRetained (order : MapOrder PropertyEntry) (now : Time) :
    List Publish → Except Halt (List PersistedPacket)
  | [] => .ok []
  | pkt :: res =>
      if pkt.qos ≠ QoS0 ∧ !pkt.expired now then
        match pkt.encode order with
        | .error .panic => .error .panic
        | .error (.error _) => encodeRetained order now res
        | .ok buf => (encodeRetained order now res).map fun encoded =>
            ⟨buf, pkt.expireAt.map formatRFC3339⟩ :: encoded
      else encodeRetained order now res

/-- The capacity of the channel `inRetained`. -/
def inRetainedCapacity : ℕ := 1024 * 512

/-- `Retain` while nobody drains the channel: a full channel blocks the caller for ever. -/
def enqueueRetained (inRetained : List Publish) (m : Publish) : Except Halt (List Publish) :=
  if inRetained.length < inRetainedCapacity then .ok (inRetained ++ [m]) else .error .blocked

/-- One round of the loop of `NewMemProvider` over the loaded entries. The warning about a packet
of another type calls a method of a `nil` pointer. -/
def loadRetained (inRetained : List Publish) (d : PersistedPacket) : Except Halt (List Publish) :=
  match d.Data with
  | [] => .error .panic
  | v :: data =>
      match decode v data with
      | .error _ => .ok inRetained
      | .ok (.control _ _, _) => .error .panic
      | .ok (.publish m, _) =>
          match d.ExpireAt with
          | none => enqueueRetained inRetained m
          | some text => enqueueRetained inRetained { m with expireAt := some (parseRFC3339 text) }

/-- `NewMemProvider` on the entries that `Load` returns: the provider and what is in its channel
`inRetained`. -/
def newMemProvider (entries : List PersistedPacket) : Except Halt (Provider × List Publish) :=
  (entries.foldlM loadRetained []).map fun inRetained => (.new, inRetained)

namespace Provider

/-- The packets that `Close` collects. -/
def closeSearch (mT : Provider) (now : Time) : List Publish :=
  let (mT, named) := mT.retainSearch (ascii "#") now
  let (mT, rooted) := mT.retainSearch (ascii "/#") now
  named ++ rooted ++ (mT.retainSearch (ascii "$share/#") now).2

/-- `Close` once the goroutines have ended: the entries given to `Store`, which is not called if
there are none. -/
def close (order : MapOrder PropertyEntry) (mT : Provider) (now : Time) :
    Except Halt (List PersistedPacket) :=
  encodeRetained order now (mT.closeSearch now)

/-- The unexpired retained messages with a QoS above 0, wherever they are in the trie. -/
def persistent (mT : Provider) (now : Time) : List Publish :=
  (Node.livePackets now mT.root.nodes).filter fun m => m.qos ≠ QoS0

end Provider

/-- What a message has to keep across a restart. The expiry is an instant in whole seconds. -/
structure Kept where
  topic : GoString
  payload : Bytes
  qos : QosType
  retain : Bool
  expiry : Option Int
  deriving DecidableEq, Repr

def Kept.of (m : Publish) : Kept :=
  ⟨m.topic, m.payload, m.qos, m.retain, m.expireAt.map formatRFC3339⟩

/-- The provider created from what `Close` stored enqueues for retention exactly the unexpired
retained messages with a QoS above 0. -/
def Provider.SurvivesRestart (order : MapOrder PropertyEntry) (mT : Provider) (now : Time) : Prop :=
  ∃ entries next, mT.close order now = .ok entries ∧ newMemProvider entries = .ok next ∧
    (next.2.map Kept.of).Perm ((mT.persistent now).map Kept.of)

section Entries

variable {order : MapOrder PropertyEntry} {now : Time}

theorem encodeRetained_mem {res : List Publish} {entries : List PersistedPacket}
    (stored : encodeRetained order now res = .ok entries) :
    ∀ d ∈ entries, ∃ pkt ∈ res, pkt.qos ≠ QoS0 ∧ pkt.encode order = .ok d.Data := by
  induction res generalizing entries with
  | nil =>
      rw [encodeRetained, Except.ok.injEq] at stored
      simp [← stored]
  | cons pkt res ih =>
      have later : ∀ {rest}, encodeRetained order now res = .ok rest → ∀ d ∈ rest,
          ∃ other ∈ pkt :: res, other.qos ≠ QoS0 ∧ other.encode order = .ok d.Data := by
        intro rest done d member
        rcases ih done d member with ⟨other, there, spec⟩
        exact ⟨other, List.mem_cons_of_mem _ there, spec⟩
      rw [encodeRetained] at stored
      split at stored
      · rename_i chosen
        split at stored
        · simp at stored
        · exact later stored
        · rename_i buf encoded
          rcases map_eq_ok.mp stored with ⟨rest, done, rfl⟩
          intro d member
          rcases List.mem_cons.mp member with rfl | there
          · exact ⟨pkt, List.mem_cons_self, chosen.1, encoded⟩
          · exact later done d there
      · exact later stored

theorem encodeRetained_eq_nil {res : List Publish}
    (none : ∀ pkt ∈ res, pkt.qos = QoS0 ∨ pkt.expired now = true) :
    encodeRetained order now res = .ok [] := by
  induction res with
  | nil => rfl
  | cons pkt res ih =>
      have skipped : ¬(pkt.qos ≠ QoS0 ∧ (!pkt.expired now) = true) := by
        rcases none pkt List.mem_cons_self with low | gone
        · exact fun chosen => chosen.1 low
        · simp [gone]
      rw [encodeRetained, if_neg skipped]
      exact ih fun other there => none other (List.mem_cons_of_mem _ there)

/-- An entry whose data are not a version followed by a PUBLISH is not enqueued. -/
theorem loadRetained_eq_ok {d : PersistedPacket} {before after : List Publish}
    (foreign : ∀ v data, d.Data = v :: data → ∀ m n, decode v data ≠ .ok (.publish m, n))
    (loaded : loadRetained before d = .ok after) : after = before := by
  unfold loadRetained at loaded
  split at loaded
  · simp at loaded
  · rename_i v data same
    split at loaded
    · exact (Except.ok.inj loaded).symm
    · simp at loaded
    · rename_i m n decoded
      exact absurd decoded (foreign v data same m n)

theorem foldlM_loadRetained {entries : List PersistedPacket} {before after : List Publish}
    (foreign : ∀ d ∈ entries, ∀ v data, d.Data = v :: data →
      ∀ m n, decode v data ≠ .ok (.publish m, n))
    (loaded : entries.foldlM loadRetained before = .ok after) : after = before := by
  induction entries generalizing before with
  | nil => exact (Except.ok.inj loaded).symm
  | cons d entries ih =>
      rw [List.foldlM_cons] at loaded
      cases first : loadRetained before d with
      | error halt => simp [first, bind, Except.bind] at loaded
      | ok middle =>
          have same := loadRetained_eq_ok (foreign d List.mem_cons_self) first
          rw [first, same] at loaded
          exact ih (fun other there => foreign other (List.mem_cons_of_mem _ there)) loaded

theorem newMemProvider_eq_ok {entries : List PersistedPacket} {next : Provider × List Publish}
    (foreign : ∀ d ∈ entries, ∀ v data, d.Data = v :: data →
      ∀ m n, decode v data ≠ .ok (.publish m, n))
    (created : newMemProvider entries = .ok next) : next.2 = [] := by
  unfold newMemProvider at created
  rcases map_eq_ok.mp created with ⟨inRetained, loaded, rfl⟩
  exact foldlM_loadRetained foreign loaded

end Entries

/-- Objects whose packet has a size that fits into 32 bits, as everything that arrives in a packet
has. -/
def RetainObject.Sized : RetainObject → Prop
  | publish m => m.size < 2 ^ 32
  | dynamic _ => True

instance : DecidablePred RetainObject.Sized
  | .publish m => inferInstanceAs (Decidable (m.size < 2 ^ 32))
  | .dynamic _ => inferInstanceAs (Decidable True)

namespace Provider

variable {order : MapOrder PropertyEntry} {now : Time} {kept : RetainObject → Prop}
  {held : Hash → SubscriptionParams → Prop} {mT : Provider}

theorem Holds.of_mem_closeSearch (holds : mT.Holds kept held) {pkt : Publish}
    (found : pkt ∈ mT.closeSearch now) : ∃ obj, kept obj ∧ pkt = obj.packetAt now := by
  have afterNamed := holds.retainSearch (ascii "#") now
  have afterRooted := afterNamed.retainSearch (ascii "/#") now
  rcases List.mem_append.mp found with outside | shared
  · rcases List.mem_append.mp outside with named | rooted
    · exact @Holds.of_mem_retainSearch kept held mT holds (ascii "#") now pkt named
    · exact afterNamed.of_mem_retainSearch rooted
  · exact afterRooted.of_mem_retainSearch shared

/-- If nothing has to survive, every object in the trie has QoS 0 or has expired. -/
theorem holds_of_persistent_eq_nil (nothing : mT.persistent now = []) :
    mT.Holds (fun obj => (obj.packetAt now).qos = QoS0 ∨ (obj.packetAt now).expired now = true)
      fun _ _ => True := by
  apply mT.wf.all_of_nodes
  intro entry member
  have filed := (mT.ok.of_mem_nodes entry member).filed
  refine ⟨?_, fun sub found there => ⟨filed sub found there, trivial⟩⟩
  intro obj here
  by_contra bad
  rw [not_or, Bool.not_eq_true] at bad
  have live : entry.2.liveRetained now = some (obj.packetAt now) := by
    simp [NodeData.liveRetained, here, bad.2]
  have listed : obj.packetAt now ∈ mT.persistent now := by
    refine List.mem_filter.mpr ⟨List.mem_filterMap.mpr ⟨entry, member, live⟩, ?_⟩
    simpa using bad.1
  rw [nothing] at listed
  exact absurd listed List.not_mem_nil

/-- Whatever is stored, nothing of it is enqueued after the restart. -/
theorem enqueues_nothing (holds : mT.Holds RetainObject.Sized held)
    {entries : List PersistedPacket} {next : Provider × List Publish}
    (closed : mT.close order now = .ok entries) (created : newMemProvider entries = .ok next) :
    next.2 = [] := by
  refine newMemProvider_eq_ok ?_ created
  intro d member v data same m n
  rcases encodeRetained_mem closed d member with ⟨pkt, found, high, encoded⟩
  rcases holds.of_mem_closeSearch found with ⟨obj, sized, rfl⟩
  cases obj with
  | dynamic value => exact absurd (value.retained_spec now).2 high
  | publish t => exact decode_shifted sized (same ▸ encoded) v m n

/-- In every reachable state, retained messages survive a restart exactly when there are none that
have to. -/
theorem survivesRestart_iff (order : MapOrder PropertyEntry) (ops : List Op) (now : Time)
    (sized : ∀ obj, .retain obj ∈ ops → obj.Sized) :
    (new.run ops).1.SurvivesRestart order now ↔ (new.run ops).1.persistent now = [] := by
  have holds : (new.run ops).1.Holds RetainObject.Sized fun _ _ => True :=
    (holds_empty false).run sized fun _ _ _ _ _ => trivial
  constructor
  · rintro ⟨entries, next, closed, created, same⟩
    rw [enqueues_nothing holds closed created, List.map_nil, List.nil_perm, List.map_eq_nil_iff] at same
    exact same
  · intro nothing
    have low := holds_of_persistent_eq_nil nothing
    refine ⟨[], (.new, []), ?_, rfl, by rw [nothing]⟩
    apply encodeRetained_eq_nil
    intro pkt found
    rcases low.of_mem_closeSearch found with ⟨obj, spec, rfl⟩
    exact spec

/-- A provider that retains one message for `a/b`. -/
def retaining (mFlags : UInt8) : Provider :=
  (new.run [.retain (.publish
    { retainedSample (ascii "a/b") with mFlags := mFlags, packetID := some 7 })]).1

/-- A message with QoS 0 is not stored, and nothing is missing after the restart. -/
theorem survivesRestart_qos0 : (retaining 0x01).SurvivesRestart (.insertion _) 0 := by
  apply (survivesRestart_iff _ _ 0 ?_).mpr rfl
  intro obj member
  rw [List.mem_singleton, Op.retain.injEq] at member
  rw [member]
  decide

/-- A message with QoS 1 is stored, and the provider created next does not restore it. -/
theorem not_survivesRestart_qos1 : ¬(retaining 0x03).SurvivesRestart (.insertion _) 0 := by
  rintro ⟨entries, next, closed, created, same⟩
  have stored : (retaining 0x03).close (.insertion _) 0 =
      .ok [⟨[0x33, 0x08, 0x00, 0x03, 0x61, 0x2F, 0x62, 0x00, 0x07, 0x31], none⟩] := rfl
  rw [stored, Except.ok.injEq] at closed
  have restarted : newMemProvider entries = .ok (.new, []) := closed ▸ rfl
  rw [restarted, Except.ok.injEq] at created
  have lengths := same.length_eq
  rw [← created] at lengths
  exact absurd lengths (by decide)

end Provider

end VolantMQ.Topics
