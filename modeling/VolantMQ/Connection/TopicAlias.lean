import Mathlib.Data.List.Induction
import VolantMQ.Connection.Inbound

/-!
# What a topic alias stands for

A V5.0 client may leave the topic of a PUBLISH empty and give a topic alias instead. Three
functions deal with such a packet at different times: `onPublish` asks for the write permission,
`publishToTopic` looks the alias up, and for QoS 2 the latter runs when the PUBREL arrives. This
module records, beside the connection, which packets arrived, which permission was asked for each
and which packets were refused, and compares the topic a message is handed over under with the
topic that was checked and with the topic its packet stood for when it arrived.
-/

namespace VolantMQ.Connection

open Lib Packet

/-- The value of the topic alias property of a packet. -/
def topicAlias (p : Publish) : Option UInt16 :=
  (p.propertyGet PropertyTopicAlias).bind fun prop => prop.asShort.toOption

namespace Inbound

variable {ρ : Type}

/-- The call `Auth.ACL(s.ID, s.Username, pkt.Topic(), auth.AccessTypeWrite)` of `onPublish`: the
topic and whether the answer is `auth.StatusDeny`. -/
def aclCheck (s : Inbound ρ) (deny : GoString → Bool) (p : Publish) : Option (GoString × Bool) :=
  match s.preProcessPublish p with
  | .error _ => none
  | .ok () => some (p.topic, deny p.topic)

/-- The packet on which `publishToTopic` is called when a PUBLISH arrives. -/
def direct (s : Inbound ρ) (deny : GoString → Bool) (m : Marked ρ) : Option (Marked ρ) :=
  match s.preProcessPublish m.packet with
  | .error _ => none
  | .ok () =>
      if reasonFor deny m.packet.topic < CodeUnspecifiedError ∧ m.packet.qos ≠ QoS2 then some m
      else none

end Inbound

/-- A PUBLISH that arrived and the permission that was asked for it. -/
structure Arrival where
  packet : Publish
  check : Option (GoString × Bool)

/-- A connection with a record of what its client sent. The mark of a packet is its place in
`arrivals`. -/
structure Receiver where
  conn : Inbound ℕ
  /-- The connection has not been closed. -/
  running : Bool
  arrivals : List Arrival
  /-- The packets on which `publishToTopic` was called, in order, as they arrived. -/
  processed : List Publish
  /-- The errors of `onPublish` and `onReleaseIn`, with the packet each is about. -/
  refused : List (ℕ × PacketError)

/-- What a connection receives, with the clock and the access rules at that moment. -/
inductive Incoming where
  | publish (buf : Bytes) (deny : GoString → Bool) (now : Time)
  | pubRel (msg : Ack) (now : Time)

namespace Receiver

/-- A connection of `New` whose aliases are given by a table. -/
def start (Version : ProtocolVersion) (RetainAvailable : Bool) (MaxRxTopicAlias : UInt16)
    (hash : ℕ) (rxTopicAlias : AList fun _ : UInt16 => GoString) : Receiver :=
  { conn := { Inbound.new Version RetainAvailable MaxRxTopicAlias hash with rxTopicAlias }
    running := true
    arrivals := []
    processed := []
    refused := [] }

/-- The packet on which a step calls `publishToTopic`. -/
def subject (s : Receiver) (input : Incoming) : Option (Marked ℕ) :=
  if !s.running then none
  else
    match input with
    | .publish buf deny _ =>
        match decodePublish s.conn.Version buf with
        | .error _ => none
        | .ok (packet, _) => s.conn.direct deny ⟨s.arrivals.length, packet⟩
    | .pubRel msg _ => s.conn.pubIn.lookup (idOrZero msg.packetID)

/-- `rxRoutine` closes the connection after a `ReasonCode`; after any other error it waits for the
next event. -/
def closes : PacketError → Bool
  | .reason _ => true
  | _ => false

/-- One round of the loop of `rxRoutine`. The errors of `onReleaseIn` are dropped. -/
def step (s : Receiver) (input : Incoming) : Receiver :=
  if !s.running then s
  else
    let processed := s.processed ++ ((s.subject input).map Marked.packet).toList
    match input with
    | .publish buf deny now =>
        match decodePublish s.conn.Version buf with
        | .error e => { s with running := !closes e }
        | .ok (packet, _) =>
            let (conn, _, err) := s.conn.onPublish deny now ⟨s.arrivals.length, packet⟩
            { conn
              running := !err.any closes
              arrivals := s.arrivals ++ [⟨packet, s.conn.aclCheck deny packet⟩]
              processed
              refused := s.refused ++ (err.map fun e => (s.arrivals.length, e)).toList }
    | .pubRel msg now =>
        { s with
          conn := (s.conn.onPubRel now msg).1
          processed
          refused := s.refused ++ ((s.subject (.pubRel msg now)).bind fun orig =>
            (s.conn.publishToTopic now orig).2.map fun e => (orig.ref, e)).toList }

end Receiver

/-- The topic under which a packet is handed over, for a given table of aliases. -/
def resolve (table : AList fun _ : UInt16 => GoString) (p : Publish) : Option GoString :=
  if p.topic.length ≠ 0 then some p.topic
  else
    match topicAlias p with
    | none => some p.topic
    | some val => (table.lookup val).map fun topic =>
        if validTopic topic then topic else p.topic

/-- The table of aliases after a packet was processed. -/
def rename (table : AList fun _ : UInt16 => GoString) (p : Publish) :
    AList fun _ : UInt16 => GoString :=
  match topicAlias p with
  | none => table
  | some val => if p.topic.length ≠ 0 then table.insert val p.topic else table

namespace Inbound

variable {ρ : Type} {s : Inbound ρ} {p : Publish}

theorem shaped_propertyGet {v : ProtocolVersion} (arrived : p.Arrived v) {id : PropertyID}
    {prop : PropertyValue} (found : p.propertyGet id = some prop) :
    WellShaped (propertyTypeMap id) prop := by
  apply arrived.shaped
  simp only [Publish.propertyGet] at found
  split at found
  · simp at found
  · exact found

theorem topicAlias_arrived {v : ProtocolVersion} (arrived : p.Arrived v) {prop : PropertyValue}
    (found : p.propertyGet PropertyTopicAlias = some prop) :
    ∃ val, prop = .short val ∧ topicAlias p = some val := by
  have shaped : WellShaped .short prop := shaped_propertyGet arrived found
  cases shaped with
  | short val =>
      exact ⟨val, rfl, by simp [topicAlias, found, PropertyValue.asShort, Except.toOption]⟩

theorem setExpiry_arrived {v : ProtocolVersion} (arrived : p.Arrived v) (now : Time)
    (topic : GoString) :
    ∃ expireAt, setExpiry now { p with topic } = .ok { p with topic, expireAt } := by
  have same : ({ p with topic } : Publish).propertyGet PropertyPublicationExpiry =
    p.propertyGet PropertyPublicationExpiry := rfl
  cases found : p.propertyGet PropertyPublicationExpiry with
  | none => exact ⟨p.expireAt, by simp only [setExpiry, same, found]⟩
  | some prop =>
      have shaped : WellShaped .int prop := shaped_propertyGet arrived found
      cases shaped with
      | int val =>
          refine ⟨some (now + val.toNat * 1000000000), ?_⟩
          simp only [setExpiry, same, found, PropertyValue.asInt]

/-- The alias part of `postProcessPublishV50` on a packet that arrived. -/
theorem resolveAlias_arrived {v : ProtocolVersion} (arrived : p.Arrived v) :
    s.resolveAlias p = match resolve s.rxTopicAlias p with
      | none => .error (.reason CodeInvalidTopicAlias)
      | some topic => .ok ({ s with rxTopicAlias := rename s.rxTopicAlias p }, { p with topic }) := by
  cases found : p.propertyGet PropertyTopicAlias with
  | none =>
      have without : topicAlias p = none := by simp [topicAlias, found]
      simp only [resolveAlias, found, resolve, rename, without, ite_self]
  | some prop =>
      rcases topicAlias_arrived arrived found with ⟨val, rfl, number⟩
      simp only [resolveAlias, found, PropertyValue.asShort, resolve, rename, number]
      by_cases empty : p.topic.length ≠ 0
      · simp only [if_pos empty]
      · simp only [if_neg empty]
        cases bound : s.rxTopicAlias.lookup val with
        | none => rfl
        | some topic =>
            simp only [Option.map_some, Publish.setTopic]
            have blank : p.topic = [] := by simpa using empty
            cases validTopic topic with
            | false => simp
            | true =>
                -- an alias for the empty topic leaves the topic empty, accepted or not
                cases topic with
                | nil =>
                    by_cases old : p.version < ProtocolV50
                    · simp [old, ← blank]
                    · simp [old]
                | cons byte topic => simp

/-- `publishToTopic` of a V5.0 connection on a packet that arrived. -/
theorem publishToTopic_arrived (five : ProtocolV50 ≤ s.Version) {m : Marked ρ}
    {v : ProtocolVersion} (arrived : m.packet.Arrived v) (now : Time) :
    (resolve s.rxTopicAlias m.packet = none ∧
      s.publishToTopic now m = (s, some (.reason CodeInvalidTopicAlias))) ∨
    ∃ packet, resolve s.rxTopicAlias m.packet = some packet.topic ∧
      s.publishToTopic now m =
        (({ s with rxTopicAlias := rename s.rxTopicAlias m.packet } : Inbound ρ).handOver
          ⟨m.ref, packet⟩, none) := by
  simp only [publishToTopic, postProcessPublish, if_pos five, resolveAlias_arrived arrived]
  cases resolve s.rxTopicAlias m.packet with
  | none => exact .inl ⟨rfl, rfl⟩
  | some topic =>
      rcases setExpiry_arrived arrived now topic with ⟨expireAt, expiry⟩
      simp only [expiry]
      exact .inr ⟨_, rfl, rfl⟩

end Inbound

namespace Receiver

/-- The state after `publishToTopic` was called on a packet. -/
def process (s : Receiver) (now : Time) (m : Marked ℕ) : Receiver :=
  { s with
    conn := (s.conn.publishToTopic now m).1
    processed := s.processed ++ [m.packet]
    refused := s.refused ++ ((s.conn.publishToTopic now m).2.map fun e => (m.ref, e)).toList }

/-- The record of a packet that arrived and for which the permission was granted. -/
def granted (p : Publish) : Arrival := ⟨p, some (p.topic, false)⟩

/-- The steps of a V5.0 connection. -/
inductive Moves (s : Receiver) (input : Incoming) : Receiver → Prop
  /-- The connection is closed, the packet does not decode, or a PUBREL is for no packet. -/
  | idle (running : Bool) (stays : s.running = false → running = false)
      (nothing : s.subject input = none) : Moves s input { s with running }
  /-- `preProcessPublish` refuses the packet. -/
  | rejected {p : Publish} {e : PacketError} (before : s.running = true)
      (arrived : p.Arrived s.conn.Version) (refusal : s.conn.preProcessPublish p = .error e)
      (nothing : s.subject input = none) :
      Moves s input { s with
        running := !closes e
        arrivals := s.arrivals ++ [⟨p, none⟩]
        refused := s.refused ++ [(s.arrivals.length, e)] }
  /-- The permission is denied. -/
  | denied {p : Publish} (before : s.running = true) (arrived : p.Arrived s.conn.Version)
      (passed : s.conn.preProcessPublish p = .ok ()) (nothing : s.subject input = none) :
      Moves s input { s with arrivals := s.arrivals ++ [⟨p, some (p.topic, true)⟩] }
  /-- A QoS 2 packet waits for its PUBREL. -/
  | stored {p : Publish} (before : s.running = true) (arrived : p.Arrived s.conn.Version)
      (passed : s.conn.preProcessPublish p = .ok ()) (nothing : s.subject input = none) :
      Moves s input { s with
        conn := s.conn.store ⟨s.arrivals.length, p⟩
        arrivals := s.arrivals ++ [granted p] }
  /-- A packet of another QoS is processed. -/
  | direct {p : Publish} (now : Time) (running : Bool) (before : s.running = true)
      (arrived : p.Arrived s.conn.Version) (passed : s.conn.preProcessPublish p = .ok ())
      (subject : s.subject input = some ⟨s.arrivals.length, p⟩) :
      Moves s input { s.process now ⟨s.arrivals.length, p⟩ with
        running
        arrivals := s.arrivals ++ [granted p] }
  /-- A QoS 2 packet is processed. -/
  | released {m : Marked ℕ} (now : Time) (id : IDType) (queued : s.conn.pubIn.lookup id = some m)
      (subject : s.subject input = some m) :
      Moves s input { s.process now m with
        conn := { (s.process now m).conn with pubIn := (s.process now m).conn.pubIn.erase id } }

/-- `onPublish` on a packet that arrived and passed `preProcessPublish`. -/
theorem onPublish_passed {s : Inbound ℕ} {m : Marked ℕ} (deny : GoString → Bool) (now : Time)
    (arrived : m.packet.Arrived s.Version) (passed : s.preProcessPublish m.packet = .ok ()) :
    (deny m.packet.topic = true ∧ s.direct deny m = none ∧
      ∃ resp, s.onPublish deny now m = (s, resp, none)) ∨
    (deny m.packet.topic = false ∧ s.direct deny m = none ∧
      ∃ resp, s.onPublish deny now m = (s.store m, resp, none)) ∨
    (deny m.packet.topic = false ∧ s.direct deny m = some m ∧
      ∃ resp, s.onPublish deny now m =
        ((s.publishToTopic now m).1, resp, (s.publishToTopic now m).2)) := by
  have low : ¬CodeAdministrativeAction < CodeUnspecifiedError := by decide
  have success : CodeSuccess < CodeUnspecifiedError := by decide
  simp only [Inbound.direct, Inbound.onPublish, passed]
  cases verdict : deny m.packet.topic with
  | true =>
      refine .inl ⟨rfl, ?_⟩
      simp only [Inbound.reasonFor, verdict, if_true, low, false_and, if_false, true_and]
      split
      · exact ⟨_, rfl⟩
      · split
        · exact ⟨_, rfl⟩
        · split <;> exact ⟨_, rfl⟩
  | false =>
      simp only [Inbound.reasonFor, verdict, Bool.false_eq_true, if_false, success, true_and,
        if_true, false_and, false_or]
      by_cases two : m.packet.qos = QoS2
      · refine .inl ⟨?_, ?_⟩
        · simp [two]
        · rw [if_pos two]
          exact ⟨_, rfl⟩
      · refine .inr ⟨?_, ?_⟩
        · simp [two]
        · rw [if_neg two]
          split
          · exact ⟨_, rfl⟩
          · split
            · exact ⟨_, rfl⟩
            · rename_i notOne notZero
              have valid := arrived.qosValid
              simp [QosType.isValid, two, notOne, notZero] at valid

section Moves

variable {s : Receiver} (running : s.running = true)

include running

theorem moves_pubRel (msg : Ack) (now : Time) :
    Moves s (.pubRel msg now) (s.step (.pubRel msg now)) := by
  have subj : s.subject (.pubRel msg now) =
      s.conn.pubIn.lookup (idOrZero msg.packetID) := by
    simp [subject, running]
  cases queued : s.conn.pubIn.lookup (idOrZero msg.packetID) with
  | none =>
      have same : s.step (.pubRel msg now) = { s with running := true } := by
        simp [step, running, subj, queued, Inbound.onPubRel, Inbound.release]
      rw [same]
      exact .idle true (by simp [running]) (subj.trans queued)
  | some m =>
      have next : s.step (.pubRel msg now) = { s.process now m with
          conn := { (s.process now m).conn with
            pubIn := (s.process now m).conn.pubIn.erase (idOrZero msg.packetID) } } := by
        simp [step, running, subj, queued, Inbound.onPubRel, Inbound.release, process]
      rw [next]
      exact .released now _ queued (subj.trans queued)

/-- A PUBLISH that was decoded. -/
theorem moves_decoded {buf : Bytes} {p : Publish} {n : ℕ} (deny : GoString → Bool) (now : Time)
    (arrived : p.Arrived s.conn.Version)
    (decoded : decodePublish s.conn.Version buf = .ok (p, n)) :
    Moves s (.publish buf deny now) (s.step (.publish buf deny now)) := by
  have subj : s.subject (.publish buf deny now) = s.conn.direct deny ⟨s.arrivals.length, p⟩ := by
    simp [subject, running, decoded]
  cases pre : s.conn.preProcessPublish p with
  | error e =>
      have nothing : s.conn.direct deny ⟨s.arrivals.length, p⟩ = none := by
        simp [Inbound.direct, pre]
      have next : s.step (.publish buf deny now) = { s with
          running := !closes e
          arrivals := s.arrivals ++ [⟨p, none⟩]
          refused := s.refused ++ [(s.arrivals.length, e)] } := by
        simp [step, running, decoded, Inbound.onPublish, Inbound.aclCheck, pre, subj, nothing]
      rw [next]
      exact .rejected running arrived pre (subj.trans nothing)
  | ok _ =>
      have check : s.conn.aclCheck deny p = some (p.topic, deny p.topic) := by
        simp [Inbound.aclCheck, pre]
      rcases onPublish_passed (m := ⟨s.arrivals.length, p⟩) deny now arrived pre with
        ⟨verdict, nothing, resp, run⟩ | ⟨verdict, nothing, resp, run⟩ | ⟨verdict, same, resp, run⟩
      · have next : s.step (.publish buf deny now) = { s with
            running := s.running
            arrivals := s.arrivals ++ [⟨p, some (p.topic, true)⟩] } := by
          simp [step, running, decoded, check, run, subj, nothing, verdict]
        rw [next]
        exact .denied running arrived pre (subj.trans nothing)
      · have next : s.step (.publish buf deny now) = { s with
            conn := s.conn.store ⟨s.arrivals.length, p⟩
            arrivals := s.arrivals ++ [granted p] } := by
          simp [step, running, decoded, check, run, subj, nothing, verdict, granted]
        rw [next]
        exact .stored running arrived pre (subj.trans nothing)
      · have next : s.step (.publish buf deny now) =
            { s.process now ⟨s.arrivals.length, p⟩ with
              running := !(s.conn.publishToTopic now ⟨s.arrivals.length, p⟩).2.any closes
              arrivals := s.arrivals ++ [granted p] } := by
          simp [step, running, decoded, check, run, subj, same, verdict, granted, process]
        rw [next]
        exact .direct now _ running arrived pre (subj.trans same)

end Moves

theorem moves_step (s : Receiver) (supported : s.conn.Version = ProtocolV50) (input : Incoming) :
    Moves s input (s.step input) := by
  cases running : s.running with
  | false =>
      have same : s.step input = s := by simp [step, running]
      have nothing : s.subject input = none := by simp [subject, running]
      rw [same]
      exact .idle s.running (fun stopped => stopped) nothing
  | true =>
      cases input with
      | pubRel msg now => exact moves_pubRel running msg now
      | publish buf deny now =>
          cases decoded : decodePublish s.conn.Version buf with
          | error e =>
              have next : s.step (.publish buf deny now) = { s with running := !closes e } := by
                simp [step, running, decoded]
              rw [next]
              exact .idle _ (by simp [running]) (by simp [subject, running, decoded])
          | ok result =>
              have arrived := Publish.arrived_of_decodePublish (.inr supported) decoded
              exact moves_decoded running deny now arrived decoded

/-- What the connection keeps of the packets in its ack queue. -/
structure Known (s : Receiver) : Prop where
  five : s.conn.Version = ProtocolV50
  queued : ∀ id m, s.conn.pubIn.lookup id = some m → m.packet.Arrived s.conn.Version ∧
    s.arrivals[m.ref]? = some (granted m.packet)

/-- Every message in the hands of the topics manager was checked on the topic it is there under,
and not denied. -/
def Enforced (s : Receiver) : Prop :=
  ∀ m ∈ s.conn.published ++ s.conn.retained, ∃ arrival, s.arrivals[m.ref]? = some arrival ∧
    arrival.check = some (m.packet.topic, false)

/-- A packet has no topic of its own, and its alias is bound to one. -/
def Rebound (table : AList fun _ : UInt16 => GoString) (p : Publish) : Prop :=
  p.topic.length = 0 ∧ ∃ val topic, topicAlias p = some val ∧ table.lookup val = some topic ∧
    validTopic topic = true ∧ topic.length ≠ 0

/-- A step does not call `publishToTopic` on a packet that needs its alias and finds it bound. -/
def Named (s : Receiver) (input : Incoming) : Prop :=
  ∀ m, s.subject input = some m → ¬Rebound s.conn.rxTopicAlias m.packet

theorem getElem?_grown {α : Type} {list more : List α} {i : ℕ} {item : α}
    (found : list[i]? = some item) : (list ++ more)[i]? = some item := by
  rw [List.getElem?_append_left (List.getElem?_eq_some_iff.mp found).1, found]

theorem frame_process (s : Receiver) (now : Time) (m : Marked ℕ) :
    (s.process now m).conn.Version = s.conn.Version ∧
      (s.process now m).conn.pubIn = s.conn.pubIn ∧
      (s.process now m).conn.MaxRxTopicAlias = s.conn.MaxRxTopicAlias := by
  simp only [process]
  rcases s.conn.publishToTopic_frame now m with ⟨table, ⟨e, run⟩ | ⟨packet, run⟩⟩
  · simp [run]
  · simp [run, Inbound.handOver]

theorem known_step {s : Receiver} (known : s.Known) (input : Incoming) : (s.step input).Known := by
  have moves := s.moves_step known.five input
  generalize s.step input = next at moves
  cases moves with
  | idle running stays nothing => exact ⟨known.five, known.queued⟩
  | rejected before arrived refusal nothing | denied before arrived passed nothing =>
      refine ⟨known.five, fun id m queued => ?_⟩
      rcases known.queued id m queued with ⟨whole, record⟩
      exact ⟨whole, getElem?_grown record⟩
  | @stored p before arrived passed nothing =>
      refine ⟨known.five, fun id m queued => ?_⟩
      by_cases same : id = idOrZero p.packetID
      · subst id
        simp only [Inbound.store, AList.lookup_insert, Option.some.injEq] at queued
        subst m
        exact ⟨arrived, by simp⟩
      · simp only [Inbound.store, AList.lookup_insert_ne same] at queued
        rcases known.queued id m queued with ⟨whole, record⟩
        exact ⟨whole, getElem?_grown record⟩
  | @direct p now running before arrived passed subject =>
      rcases s.frame_process now ⟨s.arrivals.length, p⟩ with ⟨version, pubIn, _⟩
      refine ⟨version.trans known.five, fun id m queued => ?_⟩
      simp only [version, pubIn] at queued ⊢
      rcases known.queued id m queued with ⟨whole, record⟩
      exact ⟨whole, getElem?_grown record⟩
  | @released m now id held subject =>
      rcases s.frame_process now m with ⟨version, pubIn, _⟩
      refine ⟨version.trans known.five, fun other m queued => ?_⟩
      simp only [version, pubIn] at queued ⊢
      by_cases same : other = id
      · subst other
        simp at queued
      · rw [AList.lookup_erase_ne same] at queued
        exact known.queued other m queued

/-- A packet keeps its own topic unless its alias is bound to another one. -/
theorem resolve_own_iff {table : AList fun _ : UInt16 => GoString} {p : Publish} {topic : GoString}
    (resolved : resolve table p = some topic) : topic = p.topic ↔ ¬Rebound table p := by
  simp only [resolve] at resolved
  by_cases own : p.topic.length ≠ 0
  · rw [if_pos own, Option.some.injEq] at resolved
    exact iff_of_true resolved.symm fun rebound => own rebound.1
  · rw [if_neg own] at resolved
    cases number : topicAlias p with
    | none =>
        rw [number] at resolved
        simp only [Option.some.injEq] at resolved
        refine iff_of_true resolved.symm ?_
        rintro ⟨_, val, _, present, _⟩
        simp [number] at present
    | some val =>
        rw [number] at resolved
        rcases Option.map_eq_some_iff.mp resolved with ⟨bound, look, same⟩
        have blank : p.topic = [] := by simpa using own
        constructor
        · rintro rfl ⟨_, val', bound', number', look', valid, present⟩
          cases number.symm.trans number'
          cases look.symm.trans look'
          rw [if_pos valid] at same
          exact present (by rw [same, blank]; rfl)
        · intro free
          by_contra other
          apply free
          refine ⟨by simp [blank], val, bound, number, look, ?_⟩
          split at same
          · rename_i valid
            refine ⟨valid, fun empty => other ?_⟩
            rw [← same, blank]
            simpa using empty
          · exact absurd same.symm other

theorem enforced_of_same {s next : Receiver} (enforced : s.Enforced)
    (grown : ∃ more, next.arrivals = s.arrivals ++ more)
    (published : next.conn.published = s.conn.published)
    (retained : next.conn.retained = s.conn.retained) : next.Enforced := by
  intro m member
  rw [published, retained] at member
  rcases enforced m member with ⟨arrival, found, check⟩
  rcases grown with ⟨more, grown⟩
  exact ⟨arrival, grown ▸ getElem?_grown found, check⟩

/-- What is new in the hands of the topics manager after one packet was handed over. -/
theorem mem_handOver {conn : Inbound ℕ} {m other : Marked ℕ}
    (member : other ∈ (conn.handOver m).published ++ (conn.handOver m).retained) :
    other ∈ conn.published ++ conn.retained ∨ other = m := by
  simp only [Inbound.handOver, List.mem_append, List.mem_singleton] at member
  split at member
  · rcases member with (old | new) | member
    · exact .inl (List.mem_append_left _ old)
    · exact .inr new
    · rcases List.mem_append.mp member with old | new
      · exact .inl (List.mem_append_right _ old)
      · exact .inr (List.mem_singleton.mp new)
  · rcases member with (old | new) | old
    · exact .inl (List.mem_append_left _ old)
    · exact .inr new
    · exact .inl (List.mem_append_right _ old)

/-- `publishToTopic` hands a packet over under the topic that was checked exactly when the packet
does not find its alias bound. -/
theorem enforced_process_iff {s next : Receiver} (five : s.conn.Version = ProtocolV50)
    (enforced : s.Enforced) {m : Marked ℕ} {v : ProtocolVersion} (arrived : m.packet.Arrived v)
    (now : Time) (grown : ∃ more, next.arrivals = s.arrivals ++ more)
    (record : next.arrivals[m.ref]? = some (granted m.packet))
    (published : next.conn.published = (s.process now m).conn.published)
    (retained : next.conn.retained = (s.process now m).conn.retained) :
    next.Enforced ↔ ¬Rebound s.conn.rxTopicAlias m.packet := by
  have least : ProtocolV50 ≤ s.conn.Version := five ▸ UInt8.le_refl _
  rcases Inbound.publishToTopic_arrived least arrived now with
    ⟨unresolved, run⟩ | ⟨packet, resolved, run⟩
  · refine iff_of_true (enforced_of_same enforced grown ?_ ?_) ?_
    · simp [published, process, run]
    · simp [retained, process, run]
    · rintro ⟨empty, val, topic, number, look, _⟩
      simp [resolve, empty, number, look] at unresolved
  · refine Iff.trans ?_ (resolve_own_iff resolved)
    simp only [process, run] at published retained
    constructor
    · intro after
      have handed : (⟨m.ref, packet⟩ : Marked ℕ) ∈ next.conn.published ++ next.conn.retained := by
        simp [published, Inbound.handOver]
      rcases after _ handed with ⟨arrival, found, check⟩
      cases record.symm.trans found
      simp only [granted, Option.some.injEq, Prod.mk.injEq, and_true] at check
      exact check.symm
    · intro same other member
      rw [published, retained] at member
      rcases mem_handOver member with old | rfl
      · rcases enforced other old with ⟨arrival, found, check⟩
        rcases grown with ⟨more, grown⟩
        exact ⟨arrival, grown ▸ getElem?_grown found, check⟩
      · exact ⟨granted m.packet, record, by simp [granted, same]⟩

theorem enforced_step_iff {s : Receiver} (known : s.Known) (enforced : s.Enforced)
    (input : Incoming) : (s.step input).Enforced ↔ s.Named input := by
  have moves := s.moves_step known.five input
  generalize s.step input = next at moves
  cases moves with
  | idle running stays nothing =>
      exact iff_of_true (enforced_of_same enforced ⟨[], by simp⟩ rfl rfl) (by simp [Named, nothing])
  | rejected before arrived refusal nothing | denied before arrived passed nothing
  | stored before arrived passed nothing =>
      exact iff_of_true (enforced_of_same enforced ⟨_, rfl⟩ rfl rfl) (by simp [Named, nothing])
  | @direct p now running before arrived passed subject =>
      simp only [Named, subject, Option.some.injEq, forall_eq']
      refine enforced_process_iff (m := ⟨s.arrivals.length, p⟩) known.five enforced arrived now
        ⟨_, rfl⟩ ?_ rfl rfl
      simp
  | @released m now id held subject =>
      simp only [Named, subject, Option.some.injEq, forall_eq']
      rcases known.queued id m held with ⟨arrived, record⟩
      exact enforced_process_iff known.five enforced arrived now ⟨[], by simp [process]⟩ record
        rfl rfl

/-- In every run of a V5.0 connection, with any aliases at the start and any access rules at each
step, what is handed to the topics manager was checked on the topic it is handed over under
exactly when no packet without a topic is processed while its alias is bound. -/
theorem enforced_run_iff (RetainAvailable : Bool) (MaxRxTopicAlias : UInt16) (hash : ℕ)
    (table : AList fun _ : UInt16 => GoString) (inputs : List Incoming) :
    (∀ n, ((inputs.take n).foldl step
      (start ProtocolV50 RetainAvailable MaxRxTopicAlias hash table)).Enforced) ↔
      Along step Named (start ProtocolV50 RetainAvailable MaxRxTopicAlias hash table) inputs := by
  have known : (start ProtocolV50 RetainAvailable MaxRxTopicAlias hash table).Known :=
    ⟨rfl, by simp [start, Inbound.new]⟩
  have enforced : (start ProtocolV50 RetainAvailable MaxRxTopicAlias hash table).Enforced := by
    simp [Enforced, start, Inbound.new]
  refine Iff.trans ?_ (and_iff_right enforced)
  exact always_iff_along Known Enforced (fun _ input kept => known_step kept input)
    (fun _ input kept before => enforced_step_iff kept before input) known inputs

/-- A client binds alias 1 to topic `a` while it may write to `a`. After this right was taken from
it, it still publishes there under the alias: the permission asked for is that of the empty
topic. -/
theorem alias_evades_check :
    let bind : Incoming := .publish [0x30, 7, 0, 1, 97, 3, 0x23, 0, 1] (fun _ => false) 0
    let use : Incoming :=
      .publish [0x30, 6, 0, 0, 3, 0x23, 0, 1] (fun topic => topic == ascii "a") 0
    let s := [bind, use].foldl step (start ProtocolV50 true 10 0 ∅)
    s.conn.published.map (fun m => (m.ref, m.packet.topic)) = [(0, ascii "a"), (1, ascii "a")] ∧
      s.arrivals.map Arrival.check = [some (ascii "a", false), some ([], false)] ∧
      ¬s.Enforced := by
  intro bind use s
  have published : s.conn.published.map (fun m => (m.ref, m.packet.topic)) =
      [(0, ascii "a"), (1, ascii "a")] := by decide
  have checks : s.arrivals.map Arrival.check = [some (ascii "a", false), some ([], false)] := by
    decide
  refine ⟨published, checks, fun enforced => ?_⟩
  have handed : (1, ascii "a") ∈ s.conn.published.map (fun m => (m.ref, m.packet.topic)) := by
    simp [published]
  rcases List.mem_map.mp handed with ⟨m, member, equation⟩
  rw [Prod.mk.injEq] at equation
  rcases enforced m (List.mem_append_left _ member) with ⟨arrival, found, check⟩
  have second := congrArg (fun list => list[1]?) checks
  rw [equation.1] at found
  simp [found, check, equation.2, ascii] at second

/-- The packet binds the alias to its topic. -/
def Binds (val : UInt16) (p : Publish) : Prop := topicAlias p = some val ∧ p.topic.length ≠ 0

instance (val : UInt16) (p : Publish) : Decidable (Binds val p) :=
  inferInstanceAs (Decidable (_ ∧ _))

/-- The topic that the last of the packets to bind an alias binds it to. -/
def bound (val : UInt16) (packets : List Publish) : Option GoString :=
  packets.foldl (fun held p => if Binds val p then some p.topic else held) none

/-- The packets of the client, in the order of their arrival. -/
def packets (s : Receiver) : List Publish := s.arrivals.map Arrival.packet

/-- The topic that the `i`-th packet stands for: its own, or the one that was last bound to its
alias before it. -/
def meant (packets : List Publish) (i : ℕ) : Option GoString :=
  match packets[i]? with
  | none => none
  | some p =>
      if p.topic.length ≠ 0 then some p.topic
      else (topicAlias p).bind fun val => bound val (packets.take i)

/-- Messages are handed over under the topic their packet stood for, and none is refused for an
alias that was bound when it arrived. -/
structure Faithful (s : Receiver) : Prop where
  topics : ∀ m ∈ s.conn.published ++ s.conn.retained,
    meant s.packets m.ref = some m.packet.topic
  refusals : ∀ i, (i, PacketError.reason CodeInvalidTopicAlias) ∈ s.refused →
    ∃ p, s.packets[i]? = some p ∧
      ∀ val, topicAlias p = some val → bound val (s.packets.take i) = none

/-- When a step processes a packet without a topic, the last packet processed so far that binds
its alias and the last one that arrived before it name the same topic, or there is neither. -/
def Timely (s : Receiver) (input : Incoming) : Prop :=
  ∀ m, s.subject input = some m → m.packet.topic.length = 0 →
    ∀ val, topicAlias m.packet = some val →
      bound val s.processed = bound val (s.packets.take m.ref)

/-- How the aliases of the connection come from the packets it processed. -/
structure Aligned (s : Receiver) : Prop extends Known s where
  table : ∀ val, s.conn.rxTopicAlias.lookup val = bound val s.processed
  valid : ∀ p ∈ s.processed, validTopic p.topic = true
  legal : s.running = true → ∀ p ∈ s.packets, ∀ val, topicAlias p = some val →
    ¬(val = 0 ∨ s.conn.MaxRxTopicAlias < val)

theorem bound_append (val : UInt16) (packets : List Publish) (p : Publish) :
    bound val (packets ++ [p]) = if Binds val p then some p.topic else bound val packets := by
  simp [bound, List.foldl_append]

theorem bound_mem {val : UInt16} {packets : List Publish} {topic : GoString}
    (found : bound val packets = some topic) : ∃ p ∈ packets, Binds val p ∧ p.topic = topic := by
  induction packets using List.reverseRecOn with
  | nil => simp [bound] at found
  | append_singleton packets p ih =>
      rw [bound_append] at found
      split at found
      · rename_i binds
        exact ⟨p, by simp, binds, Option.some.inj found⟩
      · rcases ih found with ⟨other, member, binds⟩
        exact ⟨other, List.mem_append_left _ member, binds⟩

theorem lookup_rename (table : AList fun _ : UInt16 => GoString) (p : Publish) (val : UInt16) :
    (rename table p).lookup val = if Binds val p then some p.topic else table.lookup val := by
  rcases Option.eq_none_or_eq_some (topicAlias p) with number | ⟨other, number⟩
  · simp [rename, Binds, number]
  · simp only [rename, Binds, number, Option.some.injEq]
    by_cases own : p.topic.length ≠ 0
    · rw [if_pos own]
      by_cases same : other = val
      · subst other
        rw [AList.lookup_insert, if_pos ⟨rfl, own⟩]
      · rw [AList.lookup_insert_ne (Ne.symm same), if_neg (fun binds => same binds.1)]
    · simp [own]

theorem meant_grown {packets more : List Publish} {i : ℕ} {topic : GoString}
    (found : meant packets i = some topic) : meant (packets ++ more) i = some topic := by
  simp only [meant] at found ⊢
  cases here : packets[i]? with
  | none => simp [here] at found
  | some p =>
      have inside : i ≤ packets.length := (List.getElem?_eq_some_iff.mp here).1.le
      rw [getElem?_grown here, List.take_append_of_le_length inside]
      simpa only [here] using found

theorem preProcessPublish_error {s : Inbound ℕ} {p : Publish} {e : PacketError}
    (refusal : s.preProcessPublish p = .error e) : closes e = true ∧
      (e = .reason CodeInvalidTopicAlias → ∀ val, topicAlias p = some val →
        val = 0 ∨ s.MaxRxTopicAlias < val) := by
  simp only [Inbound.preProcessPublish, Inbound.preProcessPublishV50] at refusal
  split at refusal
  · split at refusal
    · cases refusal
      exact ⟨rfl, fun other => absurd other (by decide)⟩
    · split at refusal
      · simp at refusal
      · rename_i prop found
        split at refusal
        · rename_i number short
          split at refusal
          · rename_i bad
            cases refusal
            refine ⟨rfl, fun _ val here => ?_⟩
            simp only [topicAlias, found, Option.bind_some, short, Except.toOption,
              Option.some.injEq] at here
            exact here ▸ bad
          · simp at refusal
        · simp at refusal
  · simp at refusal

theorem preProcessPublish_ok {s : Inbound ℕ} {p : Publish} (five : s.Version = ProtocolV50)
    (passed : s.preProcessPublish p = .ok ()) {val : UInt16} (number : topicAlias p = some val) :
    ¬(val = 0 ∨ s.MaxRxTopicAlias < val) := by
  have least : ProtocolV50 ≤ s.Version := five ▸ UInt8.le_refl _
  simp only [Inbound.preProcessPublish, Inbound.preProcessPublishV50, if_pos least] at passed
  split at passed
  · simp at passed
  · split at passed
    · rename_i missing
      simp [topicAlias, missing] at number
    · rename_i prop found
      split at passed
      · rename_i here short
        split at passed
        · simp at passed
        · rename_i good
          simp only [topicAlias, found, Option.bind_some, short, Except.toOption,
            Option.some.injEq] at number
          exact number ▸ good
      · rename_i e wrong
        simp [topicAlias, found, wrong, Except.toOption] at number

/-- On an aligned connection, a packet that arrived is processed under its own topic or the one
last bound among the packets processed. -/
theorem Aligned.resolve {s : Receiver} (aligned : s.Aligned) {p : Publish} {v : ProtocolVersion}
    (arrived : p.Arrived v) :
    Connection.resolve s.conn.rxTopicAlias p =
      if p.topic.length ≠ 0 then some p.topic
      else (topicAlias p).bind fun val => bound val s.processed := by
  simp only [Connection.resolve]
  by_cases own : p.topic.length ≠ 0
  · rw [if_pos own, if_pos own]
  · rw [if_neg own, if_neg own]
    rcases (arrived.named (not_not.mp own)).2 with ⟨val, found⟩
    have number : topicAlias p = some val := by
      simp [topicAlias, found, PropertyValue.asShort, Except.toOption]
    simp only [number, aligned.table val, Option.bind_some]
    cases last : bound val s.processed with
    | none => rfl
    | some topic =>
        rcases bound_mem last with ⟨binder, member, _, rfl⟩
        simp [aligned.valid binder member]

theorem aligned_process {s : Receiver} (aligned : s.Aligned) {m : Marked ℕ} {v : ProtocolVersion}
    (arrived : m.packet.Arrived v) (now : Time) :
    (∀ val, (s.process now m).conn.rxTopicAlias.lookup val =
      bound val (s.process now m).processed) ∧
    ∀ p ∈ (s.process now m).processed, validTopic p.topic = true := by
  have least : ProtocolV50 ≤ s.conn.Version := aligned.five ▸ UInt8.le_refl _
  refine ⟨fun val => ?_, ?_⟩
  · simp only [process, bound_append]
    rcases Inbound.publishToTopic_arrived least arrived now with
      ⟨unresolved, run⟩ | ⟨packet, _, run⟩
    · have free : ¬Binds val m.packet := by
        rintro ⟨_, own⟩
        simp [Connection.resolve, own] at unresolved
      rw [run, if_neg free]
      exact aligned.table val
    · rw [run]
      simp only [Inbound.handOver, lookup_rename, aligned.table]
  · intro p member
    rcases List.mem_append.mp member with old | new
    · exact aligned.valid p old
    · exact List.mem_singleton.mp new ▸ arrived.topicValid

theorem aligned_step {s : Receiver} (aligned : s.Aligned) (input : Incoming) :
    (s.step input).Aligned := by
  have known := known_step aligned.toKnown input
  have moves := s.moves_step aligned.five input
  generalize s.step input = next at moves known
  have grown : ∀ {p : Publish} {check : Option (GoString × Bool)}, s.running = true →
      s.conn.preProcessPublish p = .ok () →
      ∀ q ∈ (s.arrivals ++ [Arrival.mk p check]).map Arrival.packet, ∀ val, topicAlias q = some val →
        ¬(val = 0 ∨ s.conn.MaxRxTopicAlias < val) := by
    intro p check before passed q member val number
    simp only [List.map_append, List.map_cons, List.map_nil] at member
    rcases List.mem_append.mp member with old | new
    · exact aligned.legal before q old val number
    · rw [List.mem_singleton] at new
      exact preProcessPublish_ok aligned.five passed (new ▸ number)
  cases moves with
  | idle running stays nothing =>
      refine ⟨known, aligned.table, aligned.valid, fun after => aligned.legal ?_⟩
      by_contra stopped
      simp [stays (by simpa using stopped)] at after
  | rejected before arrived refusal nothing =>
      refine ⟨known, aligned.table, aligned.valid, fun after => ?_⟩
      simp [(preProcessPublish_error refusal).1] at after
  | denied before arrived passed nothing | stored before arrived passed nothing =>
      exact ⟨known, aligned.table, aligned.valid, fun _ => grown before passed⟩
  | @direct p now running before arrived passed subject =>
      have processed := aligned_process (m := ⟨s.arrivals.length, p⟩) aligned arrived now
      refine ⟨known, processed.1, processed.2, fun _ => ?_⟩
      simp only [(s.frame_process now ⟨s.arrivals.length, p⟩).2.2]
      exact grown before passed
  | @released m now id held subject =>
      have processed := aligned_process aligned (aligned.queued id m held).1 now
      refine ⟨known, processed.1, processed.2, fun after => ?_⟩
      simp only [(s.frame_process now m).2.2]
      exact aligned.legal after

theorem faithful_of_same {s next : Receiver} (faithful : s.Faithful)
    (grown : ∃ more, next.packets = s.packets ++ more)
    (published : next.conn.published = s.conn.published)
    (retained : next.conn.retained = s.conn.retained)
    (refused : ∀ i, (i, .reason CodeInvalidTopicAlias) ∈ next.refused →
      (i, .reason CodeInvalidTopicAlias) ∈ s.refused ∨
      ∃ p, next.packets[i]? = some p ∧
        ∀ val, topicAlias p = some val → bound val (next.packets.take i) = none) :
    next.Faithful := by
  rcases grown with ⟨more, grown⟩
  refine ⟨fun m member => ?_, fun i member => ?_⟩
  · rw [published, retained] at member
    rw [grown]
    exact meant_grown (faithful.topics m member)
  · rcases refused i member with old | new
    · rcases faithful.refusals i old with ⟨p, here, free⟩
      refine ⟨p, grown ▸ getElem?_grown here, fun val number => ?_⟩
      rw [grown, List.take_append_of_le_length (List.getElem?_eq_some_iff.mp here).1.le]
      exact free val number
    · exact new

/-- A packet handed over leaves the connection faithful exactly when its topic is the one meant. -/
theorem faithful_handOver_iff {s next : Receiver} (faithful : s.Faithful) {m : Marked ℕ}
    {packet : Publish} {conn : Inbound ℕ} (kept : conn.published = s.conn.published ∧
      conn.retained = s.conn.retained)
    (grown : ∃ more, next.packets = s.packets ++ more)
    (published : next.conn.published = (conn.handOver ⟨m.ref, packet⟩).published)
    (retained : next.conn.retained = (conn.handOver ⟨m.ref, packet⟩).retained)
    (refused : next.refused = s.refused) :
    next.Faithful ↔ meant next.packets m.ref = some packet.topic := by
  constructor
  · intro after
    refine after.topics ⟨m.ref, packet⟩ ?_
    simp [published, Inbound.handOver]
  · intro same
    rcases grown with ⟨more, grown⟩
    refine ⟨fun other member => ?_, fun i member => ?_⟩
    · rw [published, retained] at member
      rcases mem_handOver member with old | rfl
      · rw [kept.1, kept.2] at old
        rw [grown]
        exact meant_grown (faithful.topics other old)
      · exact same
    · rcases faithful.refusals i (refused ▸ member) with ⟨p, here, free⟩
      refine ⟨p, grown ▸ getElem?_grown here, fun val number => ?_⟩
      rw [grown, List.take_append_of_le_length (List.getElem?_eq_some_iff.mp here).1.le]
      exact free val number

theorem faithful_process_iff {s next : Receiver} (aligned : s.Aligned) (faithful : s.Faithful)
    {m : Marked ℕ} {v : ProtocolVersion} (arrived : m.packet.Arrived v) (now : Time)
    (grown : ∃ more, next.packets = s.packets ++ more)
    (record : next.packets[m.ref]? = some m.packet) (inside : m.ref ≤ s.packets.length)
    (published : next.conn.published = (s.process now m).conn.published)
    (retained : next.conn.retained = (s.process now m).conn.retained)
    (refused : next.refused = (s.process now m).refused) :
    next.Faithful ↔ (m.packet.topic.length = 0 → ∀ val, topicAlias m.packet = some val →
      bound val s.processed = bound val (s.packets.take m.ref)) := by
  have least : ProtocolV50 ≤ s.conn.Version := aligned.five ▸ UInt8.le_refl _
  have before : next.packets.take m.ref = s.packets.take m.ref := by
    rcases grown with ⟨more, grown⟩
    rw [grown, List.take_append_of_le_length inside]
  have here : meant next.packets m.ref = if m.packet.topic.length ≠ 0 then some m.packet.topic
      else (topicAlias m.packet).bind fun val => bound val (s.packets.take m.ref) := by
    simp only [meant, record, before]
  have lookup := aligned.resolve arrived
  rcases Inbound.publishToTopic_arrived least arrived now with
    ⟨unresolved, run⟩ | ⟨packet, resolved, run⟩
  · rw [lookup] at unresolved
    by_cases own : m.packet.topic.length ≠ 0
    · simp [own] at unresolved
    rw [if_neg own] at unresolved
    simp only [process, run, Option.map_some, Option.toList_some] at refused published retained
    constructor
    · intro after _ val number
      rcases after.refusals m.ref (by simp [refused]) with ⟨p, found, free⟩
      cases record.symm.trans found
      rw [number, Option.bind_some] at unresolved
      rw [unresolved, ← before]
      exact (free val number).symm
    · intro timely
      refine faithful_of_same faithful grown published retained fun i member => ?_
      rw [refused] at member
      rcases List.mem_append.mp member with old | new
      · exact .inl old
      · simp only [List.mem_singleton, Prod.mk.injEq, and_true] at new
        subst i
        refine .inr ⟨m.packet, record, fun val number => ?_⟩
        rw [before, ← timely (not_not.mp own) val number]
        rwa [number] at unresolved
  · rw [lookup] at resolved
    simp only [process, run] at published retained
    have same : next.refused = s.refused := by simp [refused, process, run]
    refine (faithful_handOver_iff faithful ⟨rfl, rfl⟩ grown published retained same).trans ?_
    rw [here, ← resolved]
    by_cases own : m.packet.topic.length ≠ 0
    · simp [own]
    · rcases (arrived.named (not_not.mp own)).2 with ⟨val, found⟩
      have number : topicAlias m.packet = some val := by
        simp [topicAlias, found, PropertyValue.asShort, Except.toOption]
      simp only [number, Option.bind_some, Option.some.injEq, forall_eq', not_not.mp own,
        forall_const]
      exact eq_comm

theorem faithful_step_iff {s : Receiver} (aligned : s.Aligned) (faithful : s.Faithful)
    (input : Incoming) : (s.step input).Faithful ↔ s.Timely input := by
  have moves := s.moves_step aligned.five input
  generalize s.step input = next at moves
  have grown : ∀ arrival, ∃ more, (s.arrivals ++ [arrival]).map Arrival.packet = s.packets ++ more :=
    fun arrival => ⟨[arrival.packet], by simp [packets]⟩
  cases moves with
  | idle running stays nothing =>
      refine iff_of_true ?_ (by simp [Timely, nothing])
      exact faithful_of_same faithful ⟨[], by simp [packets]⟩ rfl rfl fun i old => .inl old
  | denied before arrived passed nothing | stored before arrived passed nothing =>
      refine iff_of_true ?_ (by simp [Timely, nothing])
      exact faithful_of_same faithful (grown _) rfl rfl fun i old => .inl old
  | @rejected p e before arrived refusal nothing =>
      refine iff_of_true ?_ (by simp [Timely, nothing])
      refine faithful_of_same faithful (grown _) rfl rfl fun i member => ?_
      rcases List.mem_append.mp member with old | new
      · exact .inl old
      · simp only [List.mem_singleton, Prod.mk.injEq] at new
        rcases new with ⟨rfl, rfl⟩
        refine .inr ⟨p, by simp [packets], fun val number => ?_⟩
        -- every packet before this one had an alias within the limits
        cases last : bound val (({ s with arrivals := s.arrivals ++ [⟨p, none⟩] } :
            Receiver).packets.take s.arrivals.length) with
        | none => exact last
        | some topic =>
            rcases bound_mem last with ⟨binder, member, binds, _⟩
            simp only [packets, List.map_append] at member
            rw [List.take_append_of_le_length (by simp), List.take_of_length_le (by simp)] at member
            exact absurd ((preProcessPublish_error refusal).2 rfl val number)
              (aligned.legal before binder member val binds.1)
  | @direct p now running before arrived passed subject =>
      simp only [Timely, subject, Option.some.injEq, forall_eq']
      exact faithful_process_iff (m := ⟨s.arrivals.length, p⟩) aligned faithful arrived now
        (grown _) (by simp [packets, granted]) (by simp [packets]) rfl rfl rfl
  | @released m now id held subject =>
      simp only [Timely, subject, Option.some.injEq, forall_eq']
      rcases aligned.queued id m held with ⟨arrived, record⟩
      have here : s.packets[m.ref]? = some m.packet := by simp [packets, record, granted]
      exact faithful_process_iff aligned faithful arrived now ⟨[], by simp [packets, process]⟩ here
        (List.getElem?_eq_some_iff.mp here).1.le rfl rfl rfl

/-- In every run of a V5.0 connection, every message is handed over under the topic its packet
stood for when it arrived, and none is refused for an alias bound by then, exactly when no step
processes a packet without a topic after its alias was overtaken. -/
theorem faithful_run_iff (RetainAvailable : Bool) (MaxRxTopicAlias : UInt16) (hash : ℕ)
    (inputs : List Incoming) :
    (∀ n, ((inputs.take n).foldl step
      (start ProtocolV50 RetainAvailable MaxRxTopicAlias hash ∅)).Faithful) ↔
      Along step Timely (start ProtocolV50 RetainAvailable MaxRxTopicAlias hash ∅) inputs := by
  have aligned : (start ProtocolV50 RetainAvailable MaxRxTopicAlias hash ∅).Aligned :=
    ⟨⟨rfl, by simp [start, Inbound.new]⟩, by simp [start, bound], by simp [start],
      by simp [start, packets]⟩
  have faithful : (start ProtocolV50 RetainAvailable MaxRxTopicAlias hash ∅).Faithful :=
    ⟨by simp [start, Inbound.new], by simp [start]⟩
  refine Iff.trans ?_ (and_iff_right faithful)
  exact always_iff_along Aligned Faithful (fun _ input kept => aligned_step kept input)
    (fun _ input kept before => faithful_step_iff kept before input) aligned inputs

/-- A QoS 2 packet that uses alias 1 while it stands for `a` is handed over under `b`, because the
alias was bound to `b` before the PUBREL. Where a QoS 2 packet binds the alias, a QoS 0 packet that
uses it before the PUBREL is refused. -/
theorem alias_overtaken :
    let bind (topic : UInt8) : Incoming :=
      .publish [0x30, 7, 0, 1, topic, 3, 0x23, 0, 1] (fun _ => false) 0
    let late : Incoming := .publish [0x34, 8, 0, 0, 0, 7, 3, 0x23, 0, 1] (fun _ => false) 0
    let release : Incoming := .pubRel ((Ack.new ProtocolV50 .PUBREL).setPacketID 7) 0
    let bindLate : Incoming := .publish [0x34, 9, 0, 1, 97, 0, 7, 3, 0x23, 0, 1] (fun _ => false) 0
    let use : Incoming := .publish [0x30, 6, 0, 0, 3, 0x23, 0, 1] (fun _ => false) 0
    let misled := [bind 97, late, bind 98, release].foldl step (start ProtocolV50 true 10 0 ∅)
    let refused := [bindLate, use].foldl step (start ProtocolV50 true 10 0 ∅)
    (misled.conn.published.map (fun m => (m.ref, m.packet.topic)) =
        [(0, ascii "a"), (2, ascii "b"), (1, ascii "b")] ∧
      meant misled.packets 1 = some (ascii "a") ∧ ¬misled.Faithful) ∧
    (refused.refused = [(1, .reason CodeInvalidTopicAlias)] ∧
      meant refused.packets 1 = some (ascii "a") ∧ ¬refused.Faithful) := by
  intro bind late release bindLate use misled refused
  have published : misled.conn.published.map (fun m => (m.ref, m.packet.topic)) =
      [(0, ascii "a"), (2, ascii "b"), (1, ascii "b")] := by decide
  have first : meant misled.packets 1 = some (ascii "a") := by decide
  have refusal : refused.refused = [(1, .reason CodeInvalidTopicAlias)] := by decide
  have second : meant refused.packets 1 = some (ascii "a") := by decide
  refine ⟨⟨published, first, fun faithful => ?_⟩, refusal, second, fun faithful => ?_⟩
  · have handed : (1, ascii "b") ∈ misled.conn.published.map (fun m => (m.ref, m.packet.topic)) := by
      simp [published]
    rcases List.mem_map.mp handed with ⟨m, member, equation⟩
    rw [Prod.mk.injEq] at equation
    have topic := faithful.topics m (List.mem_append_left _ member)
    rw [equation.1, first, equation.2] at topic
    simp [ascii] at topic
  · rcases faithful.refusals 1 (by simp [refusal]) with ⟨p, here, free⟩
    simp only [meant, here] at second
    split at second
    · rename_i own
      have blank : (refused.packets[1]?.map fun p => p.topic.length) = some 0 := by decide
      simp [here, own] at blank
    · rcases Option.bind_eq_some_iff.mp second with ⟨val, number, last⟩
      simp [free val number] at last

end Receiver

end VolantMQ.Connection
