import Mathlib.Data.List.OfFn
import VolantMQ.Clients.NewSession
import VolantMQ.Packet.Connecting

/-!
# The CONNACK packet

What `NewSession` answers: the return code, whether there was a session, and for clients of V5.0
what the server is able to do. The properties are set one by one on the packet, with the Go type
that the configuration happens to have. For all of them but one it is the type that the encoder
expects. The keep-alive interval is an `int`, for which the encoder writes nothing, so that no
client ever learns it.

A client without an identifier is given 15 random bytes in base64.
-/

namespace VolantMQ.Clients

open Lib Packet

/-- The digits of `base64.URLEncoding`. -/
def base64Alphabet : Bytes :=
  ascii "ABCDEFGHIJKLMNOPQRSTUVWXYZabcdefghijklmnopqrstuvwxyz0123456789-_"

def base64Digit (value : ℕ) : UInt8 := base64Alphabet.getD value 0

/-- `base64.URLEncoding.EncodeToString`, which fills the last group up with `=`. -/
def base64URLEncode : Bytes → GoString
  | [] => []
  | [a] => [base64Digit (a.toNat / 4), base64Digit (a.toNat % 4 * 16), 0x3D, 0x3D]
  | [a, b] =>
      [base64Digit (a.toNat / 4), base64Digit (a.toNat % 4 * 16 + b.toNat / 16),
        base64Digit (b.toNat % 16 * 4), 0x3D]
  | a :: b :: c :: rest =>
      base64Digit (a.toNat / 4) :: base64Digit (a.toNat % 4 * 16 + b.toNat / 16) ::
        base64Digit (b.toNat % 16 * 4 + c.toNat / 64) :: base64Digit (c.toNat % 64) ::
        base64URLEncode rest

/-- `genClientID`, with what the source of random bytes gives. -/
def genClientID : Option (Fin 15 → UInt8) → GoString
  | none => []
  | some b => base64URLEncode (List.ofFn b)

theorem clientIDChar_base64Digit {value : ℕ} (small : value < 64) :
    Connect.clientIDChar (base64Digit value) = true ∧ base64Digit value < 0x80 := by
  revert value
  decide +kernel

theorem base64Digit_inj {value other : ℕ} (small : value < 64) (also : other < 64)
    (same : base64Digit value = base64Digit other) : value = other := by
  have length : base64Alphabet.length = 64 := by decide +kernel
  have distinct : base64Alphabet.Nodup := by decide +kernel
  rw [base64Digit, base64Digit, List.getD_eq_getElem _ _ (by omega),
    List.getD_eq_getElem _ _ (by omega)] at same
  exact (distinct.getElem_inj_iff).mp same

/-- Whole groups are written without filling up. -/
theorem base64URLEncode_valid {b : Bytes} {groups : ℕ} (length : b.length = 3 * groups) :
    (base64URLEncode b).length = 4 * groups ∧
      ∀ char ∈ base64URLEncode b, Connect.clientIDChar char = true ∧ char < 0x80 := by
  induction groups generalizing b with
  | zero =>
      have none : b = [] := List.length_eq_zero_iff.mp length
      rw [none]
      exact ⟨rfl, by simp [base64URLEncode]⟩
  | succ groups ih =>
      rcases b with _ | ⟨x, _ | ⟨y, _ | ⟨z, rest⟩⟩⟩
      · simp at length
      · simp at length
        omega
      · simp at length
        omega
      · have tail := @ih rest (by simp only [List.length_cons] at length; omega)
        have xBound := x.toNat_lt
        have yBound := y.toNat_lt
        have zBound := z.toNat_lt
        refine ⟨?_, ?_⟩
        · simp only [base64URLEncode, List.length_cons, tail.1]
          omega
        · intro char member
          simp only [base64URLEncode, List.mem_cons] at member
          rcases member with rfl | rfl | rfl | rfl | later
          · exact clientIDChar_base64Digit (by omega)
          · exact clientIDChar_base64Digit (by omega)
          · exact clientIDChar_base64Digit (by omega)
          · exact clientIDChar_base64Digit (by omega)
          · exact tail.2 char later

theorem base64URLEncode_inj {b other : Bytes} {groups : ℕ} (length : b.length = 3 * groups)
    (also : other.length = 3 * groups) (same : base64URLEncode b = base64URLEncode other) :
    b = other := by
  induction groups generalizing b other with
  | zero =>
      rw [List.length_eq_zero_iff.mp length, List.length_eq_zero_iff.mp also]
  | succ groups ih =>
      rcases b with _ | ⟨x, _ | ⟨y, _ | ⟨z, rest⟩⟩⟩
      · simp at length
      · simp at length
        omega
      · simp at length
        omega
      · rcases other with _ | ⟨u, _ | ⟨v, _ | ⟨w, more⟩⟩⟩
        · simp at also
        · simp at also
          omega
        · simp at also
          omega
        · simp only [base64URLEncode, List.cons.injEq] at same
          rcases same with ⟨first, second, third, fourth, tail⟩
          have xBound := x.toNat_lt
          have yBound := y.toNat_lt
          have zBound := z.toNat_lt
          have uBound := u.toNat_lt
          have vBound := v.toNat_lt
          have wBound := w.toNat_lt
          have firstEq := base64Digit_inj (by omega) (by omega) first
          have secondEq := base64Digit_inj (by omega) (by omega) second
          have thirdEq := base64Digit_inj (by omega) (by omega) third
          have fourthEq := base64Digit_inj (by omega) (by omega) fourth
          have restEq := ih (by simp only [List.length_cons] at length; omega)
            (by simp only [List.length_cons] at also; omega) tail
          have xEq : x = u := UInt8.toNat_inj.mp (by omega)
          have yEq : y = v := UInt8.toNat_inj.mp (by omega)
          have zEq : z = w := UInt8.toNat_inj.mp (by omega)
          rw [xEq, yEq, zEq, restEq]

theorem utf8Valid_of_ascii {text : Bytes} (plain : ∀ char ∈ text, char < 0x80) :
    utf8Valid text = true := by
  induction text with
  | nil => rfl
  | cons char text ih =>
      unfold utf8Valid
      rw [if_pos (plain char List.mem_cons_self)]
      exact ih fun other member => plain other (List.mem_cons_of_mem char member)

/-- The identifiers that the server gives out are those of a client: the server takes each of them
in a CONNECT packet, and from different random bytes it makes different ones. -/
theorem genClientID_accepted (b other : Fin 15 → UInt8) :
    Connect.validClientID (genClientID (some b)) = true ∧ (genClientID (some b)).length = 20 ∧
      (genClientID (some b) = genClientID (some other) → b = other) := by
  have groups := @base64URLEncode_valid (List.ofFn b) 5 (by simp)
  refine ⟨?_, groups.1, ?_⟩
  · have plain := utf8Valid_of_ascii fun char member => (groups.2 char member).2
    have known : (base64URLEncode (List.ofFn b)).all Connect.clientIDChar = true :=
      List.all_eq_true.mpr fun char member => (groups.2 char member).1
    unfold Connect.validClientID genClientID
    rw [plain, known]
    simp
  · intro same
    have bytes := @base64URLEncode_inj (List.ofFn b) (List.ofFn other) 5 (by simp) (by simp) same
    exact List.ofFn_injective bytes

/-- The identifiers that have a subscriber, and those that the persistence has a session for. -/
structure Known where
  subscribers : List GoString
  persisted : List GoString

/-- `getSubscriber`: what is known afterwards, and whether there was a session. -/
def Known.getSubscriber (k : Known) (id : GoString) (clean : Bool) : Known × Bool :=
  let k : Known :=
    if clean then ⟨k.subscribers.filter (· ≠ id), k.persisted.filter (· ≠ id)⟩ else k
  if k.subscribers.contains id then (k, true)
  else (⟨id :: k.subscribers, k.persisted⟩, k.persisted.contains id)

/-- The fields of `clients.Config` that the client is told about. -/
structure Capabilities where
  MaxPacketSize : UInt32
  ReceiveMax : UInt16
  TopicAliasMaximum : UInt16
  MaximumQoS : QosType
  AvailableRetain : Bool
  AvailableWildcardSubscription : Bool
  AvailableSubscriptionID : Bool
  AvailableSharedSubscription : Bool

def boolToByte (v : Bool) : UInt8 := if v then 1 else 0

/-- `PropertySet` whose error is ignored. -/
def tell (h : Header) (id : PropertyID) (val : PropertyValue) : Header :=
  match h.propertySet id val with
  | .error _ => h
  | .ok h => h

/-- `writeSessionProperties` -/
def writeSessionProperties (c : Capabilities) (resp : Header) (id : GoString) : Header :=
  let resp :=
    if c.ReceiveMax < 65535 then tell resp PropertyReceiveMaximum (.short c.ReceiveMax) else resp
  let resp :=
    if c.MaximumQoS < QoS2 then tell resp PropertyMaximumQoS (.byte c.MaximumQoS) else resp
  let resp := tell resp PropertyRetainAvailable (.byte (boolToByte c.AvailableRetain))
  let resp :=
    if c.MaxPacketSize < 268435455 then
      tell resp PropertyMaximumPacketSize (.int c.MaxPacketSize)
    else resp
  let resp :=
    if 0 < id.length then tell resp PropertyAssignedClientIdentifier (.string id) else resp
  let resp :=
    if 0 < c.TopicAliasMaximum then
      tell resp PropertyTopicAliasMaximum (.short c.TopicAliasMaximum)
    else resp
  let resp := tell resp PropertyWildcardSubscriptionAvailable
    (.byte (boolToByte c.AvailableWildcardSubscription))
  let resp := tell resp PropertySubscriptionIdentifierAvailable
    (.byte (boolToByte c.AvailableSubscriptionID))
  tell resp PropertySharedSubscriptionAvailable (.byte (boolToByte c.AvailableSharedSubscription))

/-- `packet.ConnAck` -/
structure Response where
  header : Header
  sessionPresent : Bool
  returnCode : ReasonCode

namespace Response

/-- `New(v, CONNACK)` with a return code -/
def new (v : ProtocolVersion) (returnCode : ReasonCode) : Response :=
  ⟨.new v .CONNACK, false, setReturnCode 0 returnCode⟩

/-- The return code for an error of any kind. -/
def refuse (resp : Response) (v : ProtocolVersion) : Response :=
  { resp with
    returnCode := setReturnCode resp.returnCode
      (if v = ProtocolV50 then CodeUnspecifiedError else CodeRefusedServerUnavailable) }

/-- The part of `configureSession` that writes into the CONNACK packet, and its error. The
keep-alive interval has the type `int`, which is the type of no property. -/
def configure (resp : Response) (c : Capabilities) (h : Header) (assigned : GoString)
    (sessionPresent : Bool) : Response × Option PacketError :=
  if ProtocolV50 ≤ h.version then
    match readSessionProperties h newConnectionPreConfig with
    | .error code => (resp, some (.reason code))
    | .ok _ =>
        let resp := { resp with header := writeSessionProperties c resp.header assigned }
        match resp.header.propertySet PropertyServerKeepAlive .foreign with
        | .error e => (resp, some e)
        | .ok header => ({ resp with header, sessionPresent }, none)
  else ({ resp with sessionPresent }, none)

end Response

/-- The CONNACK packet that the deferred function of `NewSession` writes for a client that nobody
has refused before. -/
def SessionManager.answer (m : SessionManager) (cfg : Capabilities) (k : Known) (h : Header)
    (pkt : Packet.Connect) (resp : Response) (c : Circumstances) : Response :=
  let id := clientID pkt c
  match m.loadSession id h.version c with
  | (_, _, some _) => resp.refuse h.version
  | (_, _, none) =>
      let assigned := if pkt.clientID.length = 0 then id else []
      let present := (k.getSubscriber id (Connect.isClean pkt.connectFlags)).2
      match resp.configure cfg h assigned present with
      | (resp, some _) => resp.refuse h.version
      | (resp, none) => resp

/-- The CONNACK packet that the deferred function of `NewSession` writes. -/
def SessionManager.respond (m : SessionManager) (cfg : Capabilities) (k : Known) (h : Header)
    (pkt : Packet.Connect) (resp : Response) (c : Circumstances) : Response :=
  let returnCode := m.checkServerStatus h.version resp.returnCode
  if returnCode ≠ CodeSuccess then { resp with returnCode }
  else m.answer cfg k h pkt { resp with returnCode } c

section Silent

variable {t : PacketType} {entries : List PropertyEntry} {silent : PropertyEntry}

end Silent

/-- A CONNACK packet of V5.0 in which the given properties were set, all among the given
identifiers. -/
structure Told (h : Header) (entries : List PropertyEntry) (ids : List PropertyID) : Prop where
  version : h.version = ProtocolV50
  mType : h.mType = .CONNACK
  mFlags : h.mFlags = 0
  built : h.properties.Built entries
  keys : entries.NodupKeys
  among : ∀ entry ∈ entries, entry.1 ∈ ids

section Telling

variable {h : Header} {entries : List PropertyEntry} {ids : List PropertyID} {id : PropertyID}

theorem Told.fresh (told : Told h entries ids) (fresh : id ∉ ids) :
    ∀ entry ∈ entries, entry.1 ≠ id := by
  intro entry member same
  exact fresh (same ▸ told.among entry member)

theorem Told.set (told : Told h entries ids)
    (valid : PropertyID.isValidPacketType id .CONNACK = true) (fresh : id ∉ ids)
    (val : PropertyValue) :
    ∃ next, h.propertySet id val = .ok next ∧ Told next (entries ++ [⟨id, val⟩]) (id :: ids) := by
  rcases told.built.set valid val (told.fresh fresh) with ⟨properties, set, built⟩
  refine ⟨{ h with properties }, ?_, told.version, told.mType, told.mFlags, built, ?_, ?_⟩
  · rw [Header.propertySet, if_neg (not_not.mpr told.version), told.mType, set]
    rfl
  · rw [List.NodupKeys, List.keys, List.map_append, List.nodup_append]
    refine ⟨told.keys, by simp, ?_⟩
    intro old member new newMember
    rcases List.mem_map.mp member with ⟨entry, held, rfl⟩
    simp only [List.map_cons, List.map_nil, List.mem_singleton] at newMember
    rw [newMember]
    exact told.fresh fresh entry held
  · intro entry member
    rcases List.mem_append.mp member with before | new
    · exact List.mem_cons_of_mem id (told.among entry before)
    · rw [List.mem_singleton] at new
      rw [new]
      exact List.mem_cons_self

theorem Told.tell (told : Told h entries ids)
    (valid : PropertyID.isValidPacketType id .CONNACK = true) (fresh : id ∉ ids)
    (val : PropertyValue) : Told (tell h id val) (entries ++ [⟨id, val⟩]) (id :: ids) := by
  rcases told.set valid fresh val with ⟨next, set, more⟩
  rw [Clients.tell, set]
  exact more

end Telling

section OnWire

variable {h : Header} {code : ReasonCode} (order : MapOrder PropertyEntry)

end OnWire

section Answers

variable {m : SessionManager} {h : Header} {pkt : Packet.Connect} {code : ReasonCode}
  {c : Circumstances} {cfg : Capabilities}

end Answers

end VolantMQ.Clients
