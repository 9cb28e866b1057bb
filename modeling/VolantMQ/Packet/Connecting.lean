import Mathlib.Data.List.Induction
import VolantMQ.Lib.Run
import VolantMQ.Packet.Construct
import VolantMQ.Packet.Stable

/-!
# CONNECT packets that are built with the setters

A client builds its CONNECT with `New` and the setters of `connect.go`, which keep the presence of
the optional fields in the bits of one byte. Some of them change the packet even when they return an
error, and a user name or a password stays in the packet when its bit is cleared. What the caller
asks for is a `Request`, in which a field is there or not and is what the last call about it says.
What the packet carries after the calls is an `Intent`.

`SetCredentials` wants to refuse a password without a user name in the versions before 5.0, but it
looks at the credentials of the calls before. So the first such call succeeds, the server refuses
the packet, and from then on all calls fail, also those with a user name. There the packet carries
less than was asked for.
-/

namespace VolantMQ.Packet

open Lib

/-- `header.PropertySet` -/
def Header.propertySet (h : Header) (id : PropertyID) (val : PropertyValue) :
    Except PacketError Header :=
  if h.version ≠ ProtocolV50 then .error .ErrNotSupported
  else (h.properties.set h.mType id val).map fun properties => { h with properties }

theorem Property.set_of_refused {p : Property} {t : PacketType} {id : PropertyID}
    (refused : ¬PropertyID.isValidPacketType id t = true) (val : PropertyValue) :
    ∃ e, p.set t id val = .error e := by
  unfold PropertyID.isValidPacketType at refused
  unfold set
  cases found : propertyAllowedMessageTypes.lookup id with
  | none => exact ⟨_, rfl⟩
  | some types =>
      rw [found] at refused
      have missing : (types.lookup t).isNone = true := by
        cases entry : types.lookup t with
        | none => rfl
        | some dup =>
            have there : (types.lookup t).isSome = true := by rw [entry]; rfl
            exact absurd there refused
      exact ⟨_, if_pos missing⟩

/-- A block that was built from nothing. -/
theorem Property.Built.eq_empty {p : Property} (built : p.Built []) : p = .empty := by
  rcases p with ⟨map, len⟩
  have none : map = ∅ := AList.ext built.held.eq_nil
  have zero : len = UInt32.ofNat (weight []) := built.counted
  rw [none, zero]
  rfl

/-- What the message decoder reads back was written as a frame. -/
theorem Message.Rereads.framed {v : ProtocolVersion} {order : MapOrder PropertyEntry}
    {t : PacketType} {flags : UInt8} {m made : Message} (created : newMessage v t = .ok made)
    (small : flags.toNat < 16) (accepted : flagsRejected t flags = false)
    (rereads : m.Rereads t flags (fun remLen => decodeMessage v t flags remLen) order) :
    ∃ f : Frame, m.encode order = .ok f.bytes ∧
      ∃ again, decode v f.bytes = .ok (again, f.bytes.length) ∧ m.Same again := by
  rcases rereads with ⟨rfl, rfl, bytes, again, emits, length, short, run, same⟩
  refine ⟨_, encode_eq_frame emits length short, again, ?_, same⟩
  rw [decode_frame created small accepted, run, Frame.length_bytes]
  rfl

namespace Connect

/-- The errors of the setters. -/
inductive SetterError where
  | ErrInvalid
  | ErrInvalidArgs
  | ErrInvalidUtf8
  | packet (err : PacketError)
  deriving DecidableEq, Repr

section Setters

variable (msg : Connect)

/-- `Connect.SetClean` -/
def setClean (v : Bool) : Connect :=
  if v then { msg with connectFlags := msg.connectFlags ||| maskConnFlagClean }
  else { msg with connectFlags := msg.connectFlags &&& ~~~maskConnFlagClean }

/-- `Connect.SetKeepAlive` -/
def setKeepAlive (v : UInt16) : Connect := { msg with keepAlive := v }

/-- `Connect.SetClientID` -/
def setClientID (v : Bytes) : Connect × Option SetterError :=
  if !validClientID v then (msg, some .ErrInvalid) else ({ msg with clientID := v }, none)

/-- `Connect.ResetWill` -/
def resetWill : Connect :=
  { msg with
    connectFlags := ((msg.connectFlags &&& ~~~maskConnFlagWill) &&& ~~~maskConnFlagWillQos) &&&
      ~~~maskConnFlagWillRetain
    willTopic := []
    willMessage := [] }

/-- `Connect.SetWill` -/
def setWill (t : GoString) (m : Bytes) (qos : QosType) (retain : Bool) :
    Connect × Option SetterError :=
  let msg := msg.resetWill
  if t.length == 0 || m.length == 0 || !qos.isValid then (msg, some .ErrInvalidArgs)
  else
    let connectFlags :=
      if retain then msg.connectFlags ||| maskConnFlagWillRetain else msg.connectFlags
    ({ msg with
      connectFlags := (connectFlags ||| (qos <<< 3)) ||| maskConnFlagWill
      willTopic := t
      willMessage := m }, none)

/-- `Connect.SetCredentials`, which checks the credentials that the packet had before. -/
def setCredentials (version : ProtocolVersion) (u p : Bytes) : Connect × Option SetterError :=
  let msg := { msg with connectFlags :=
    (msg.connectFlags &&& ~~~maskConnFlagUsername) &&& ~~~maskConnFlagPassword }
  if (msg.username.length == 0 && msg.password.length != 0) && version < ProtocolV50 then
    (msg, some .ErrInvalidArgs)
  else if u.length != 0 && !utf8Valid u then (msg, some .ErrInvalidUtf8)
  else
    let msg :=
      if u.length != 0 then
        { msg with connectFlags := msg.connectFlags ||| maskConnFlagUsername, username := u }
      else msg
    let msg :=
      if p.length != 0 then
        { msg with connectFlags := msg.connectFlags ||| maskConnFlagPassword, password := p }
      else msg
    (msg, none)

end Setters

/-- A `packet.Connect` with its header. -/
structure Object where
  header : Header
  msg : Connect

/-- `New(v, CONNECT)` -/
def Object.new (v : ProtocolVersion) : Object := ⟨.new v .CONNECT, ⟨0, 0, [], [], [], [], []⟩⟩

/-- A call of one of the setters. -/
inductive Setter where
  | clean (v : Bool)
  | keepAlive (v : UInt16)
  | clientID (v : Bytes)
  | will (t : GoString) (m : Bytes) (qos : QosType) (retain : Bool)
  | resetWill
  | credentials (u p : Bytes)
  | property (id : PropertyID) (val : PropertyValue)

/-- The object after a call, and the error of the call. -/
def Setter.apply (o : Object) : Setter → Object × Option SetterError
  | clean v => ({ o with msg := o.msg.setClean v }, none)
  | keepAlive v => ({ o with msg := o.msg.setKeepAlive v }, none)
  | clientID v => ({ o with msg := (o.msg.setClientID v).1 }, (o.msg.setClientID v).2)
  | will t m qos retain =>
      ({ o with msg := (o.msg.setWill t m qos retain).1 }, (o.msg.setWill t m qos retain).2)
  | resetWill => ({ o with msg := o.msg.resetWill }, none)
  | credentials u p =>
      ({ o with msg := (o.msg.setCredentials o.header.version u p).1 },
        (o.msg.setCredentials o.header.version u p).2)
  | property id val =>
      match o.header.propertySet id val with
      | .error e => (o, some (.packet e))
      | .ok header => ({ o with header }, none)

/-- `New(v, CONNECT)` followed by calls of setters, whose errors are ignored. -/
def build (v : ProtocolVersion) (setters : List Setter) : Object :=
  setters.foldl (fun o setter => (setter.apply o).1) (.new v)

/-- The will of a client. -/
structure WillIntent where
  topic : GoString
  message : Bytes
  qos : QosType
  retain : Bool

/-- What can be asked for in a CONNECT. -/
structure Request where
  clean : Bool
  keepAlive : UInt16
  clientID : Bytes
  will : Option WillIntent
  username : Option Bytes
  password : Option Bytes
  properties : List PropertyEntry

/-- A field that is there if it is not empty. -/
def nonempty (field : Bytes) : Option Bytes := if field = [] then none else some field

namespace Setter

@[simp] def asksClean : Setter → Option Bool
  | clean value => some value
  | _ => none

@[simp] def asksKeepAlive : Setter → Option UInt16
  | keepAlive value => some value
  | _ => none

/-- An identifier that is not valid is not asked for. -/
@[simp] def asksClientID : Setter → Option Bytes
  | clientID id => if validClientID id then some id else none
  | _ => none

/-- A will that is not valid asks for no will. -/
@[simp] def asksWill : Setter → Option (Option WillIntent)
  | will t m qos retain =>
      some (if t = [] ∨ m = [] ∨ qos.isValid = false then none else some ⟨t, m, qos, retain⟩)
  | resetWill => some none
  | _ => none

/-- A user name that is not valid asks for no credentials. -/
@[simp] def asksCredentials : Setter → Option (Option Bytes × Option Bytes)
  | credentials u p => some (if utf8Valid u then (nonempty u, nonempty p) else (none, none))
  | _ => none

@[simp] def asksProperty (v : ProtocolVersion) : Setter → Option PropertyEntry
  | property id val =>
      if v = ProtocolV50 ∧ PropertyID.isValidPacketType id .CONNECT = true then some ⟨id, val⟩
      else none
  | _ => none

end Setter

/-- The last of the calls that asks for something. -/
def lastCall {α : Type} (asks : Setter → Option α) (setters : List Setter) : Option α :=
  (setters.filterMap asks).getLast?

/-- What the caller asks for. Every field is what the last call about it says. -/
def asked (v : ProtocolVersion) (setters : List Setter) : Request where
  clean := (lastCall Setter.asksClean setters).getD false
  keepAlive := (lastCall Setter.asksKeepAlive setters).getD 0
  clientID := (lastCall Setter.asksClientID setters).getD []
  will := (lastCall Setter.asksWill setters).getD none
  username := ((lastCall Setter.asksCredentials setters).getD (none, none)).1
  password := ((lastCall Setter.asksCredentials setters).getD (none, none)).2
  properties := setters.filterMap (Setter.asksProperty v)

/-- What the packet carries after the calls so far. -/
structure Intent extends Request where
  /-- Some call has set a user name, and some call a password. -/
  named : Bool
  secret : Bool

namespace Intent

def new : Intent := ⟨⟨false, 0, [], none, none, none, []⟩, false, false⟩

/-- What a call changes, refusals of `SetCredentials` included. -/
def call (v : ProtocolVersion) (i : Intent) : Setter → Intent
  | .clean value => { i with clean := value }
  | .keepAlive value => { i with keepAlive := value }
  | .clientID id => if validClientID id then { i with clientID := id } else i
  | .will t m qos retain =>
      { i with
        will := if t = [] ∨ m = [] ∨ qos.isValid = false then none else some ⟨t, m, qos, retain⟩ }
  | .resetWill => { i with will := none }
  | .credentials u p =>
      if (v < ProtocolV50 ∧ i.secret = true ∧ i.named = false) ∨ utf8Valid u = false then
        { i with username := none, password := none }
      else
        { i with
          username := nonempty u
          password := nonempty p
          named := i.named || u != []
          secret := i.secret || p != [] }
  | .property id val =>
      if v = ProtocolV50 ∧ PropertyID.isValidPacketType id .CONNECT = true then
        { i with properties := i.properties ++ [⟨id, val⟩] }
      else i

end Intent

/-- What a sequence of calls leaves in the packet. -/
def intent (v : ProtocolVersion) (setters : List Setter) : Intent :=
  setters.foldl (Intent.call v) .new

/-- The byte of flags of a packet with these fields. -/
def flagsOf (clean : Bool) (will : Option (QosType × Bool)) (username password : Bool) : UInt8 :=
  (if clean then maskConnFlagClean else 0) |||
    (match will with
      | none => 0
      | some (qos, retain) =>
          maskConnFlagWill ||| (qos <<< 3) ||| (if retain then maskConnFlagWillRetain else 0)) |||
    (if username then maskConnFlagUsername else 0) |||
    (if password then maskConnFlagPassword else 0)

section Flags

variable {clean username password : Bool} {will : Option (QosType × Bool)}

/-- A statement about the byte of flags, of which there are few. -/
theorem forall_flags {good : Bool → Option (QosType × Bool) → Bool → Bool → Prop}
    (none_ : ∀ clean username password, good clean none username password)
    (some_ : ∀ qos ∈ [QoS0, QoS1, QoS2], ∀ clean retain username password,
      good clean (some (qos, retain)) username password)
    (valid : ∀ qos retain, will = some (qos, retain) → qos.isValid = true) :
    good clean will username password := by
  rcases will with _ | ⟨qos, retain⟩
  · exact none_ clean username password
  · have values : qos = QoS0 ∨ qos = QoS1 ∨ qos = QoS2 := by
      simpa [QosType.isValid, or_assoc] using valid qos retain rfl
    exact some_ qos (by simpa using values) clean retain username password

/-- What the bits say. -/
theorem flagsOf_bits (valid : ∀ qos retain, will = some (qos, retain) → qos.isValid = true) :
    isClean (flagsOf clean will username password) = clean ∧
      willFlag (flagsOf clean will username password) = will.isSome ∧
      willQos (flagsOf clean will username password) = (will.map Prod.fst).getD QoS0 ∧
      willRetain (flagsOf clean will username password) = (will.map Prod.snd).getD false ∧
      usernameFlag (flagsOf clean will username password) = username ∧
      passwordFlag (flagsOf clean will username password) = password ∧
      flagsOf clean will username password &&& maskConnFlagReserved = 0 := by
  apply @forall_flags clean username password will (fun clean will username password =>
    isClean (flagsOf clean will username password) = clean ∧
      willFlag (flagsOf clean will username password) = will.isSome ∧
      willQos (flagsOf clean will username password) = (will.map Prod.fst).getD QoS0 ∧
      willRetain (flagsOf clean will username password) = (will.map Prod.snd).getD false ∧
      usernameFlag (flagsOf clean will username password) = username ∧
      passwordFlag (flagsOf clean will username password) = password ∧
      flagsOf clean will username password &&& maskConnFlagReserved = 0) _ _ valid
  · decide +kernel
  · decide +kernel

theorem flagsOf_setClean (valid : ∀ qos retain, will = some (qos, retain) → qos.isValid = true)
    (v : Bool) :
    (if v then flagsOf clean will username password ||| maskConnFlagClean
      else flagsOf clean will username password &&& ~~~maskConnFlagClean) =
        flagsOf v will username password := by
  apply @forall_flags clean username password will (fun clean will username password =>
    ∀ v : Bool, (if v then flagsOf clean will username password ||| maskConnFlagClean
      else flagsOf clean will username password &&& ~~~maskConnFlagClean) =
        flagsOf v will username password) _ _ valid
  · decide +kernel
  · decide +kernel

theorem flagsOf_resetWill (valid : ∀ qos retain, will = some (qos, retain) → qos.isValid = true) :
    ((flagsOf clean will username password &&& ~~~maskConnFlagWill) &&& ~~~maskConnFlagWillQos) &&&
      ~~~maskConnFlagWillRetain = flagsOf clean none username password := by
  apply @forall_flags clean username password will (fun clean will username password =>
    ((flagsOf clean will username password &&& ~~~maskConnFlagWill) &&& ~~~maskConnFlagWillQos) &&&
      ~~~maskConnFlagWillRetain = flagsOf clean none username password) _ _ valid
  · decide +kernel
  · decide +kernel

theorem flagsOf_setWill {qos : QosType} (valid : qos.isValid = true) (retain : Bool) :
    ((if retain then flagsOf clean none username password ||| maskConnFlagWillRetain
      else flagsOf clean none username password) ||| (qos <<< 3)) ||| maskConnFlagWill =
        flagsOf clean (some (qos, retain)) username password := by
  have values : qos = QoS0 ∨ qos = QoS1 ∨ qos = QoS2 := by
    simpa [QosType.isValid, or_assoc] using valid
  revert clean username password retain
  rcases values with rfl | rfl | rfl <;> decide

theorem flagsOf_setCredentials
    (valid : ∀ qos retain, will = some (qos, retain) → qos.isValid = true) :
    (flagsOf clean will username password &&& ~~~maskConnFlagUsername) &&& ~~~maskConnFlagPassword =
        flagsOf clean will false false ∧
      flagsOf clean will false false ||| maskConnFlagUsername = flagsOf clean will true false ∧
      flagsOf clean will username false ||| maskConnFlagPassword =
        flagsOf clean will username true := by
  apply @forall_flags clean username password will (fun clean will username password =>
    (flagsOf clean will username password &&& ~~~maskConnFlagUsername) &&& ~~~maskConnFlagPassword =
        flagsOf clean will false false ∧
      flagsOf clean will false false ||| maskConnFlagUsername = flagsOf clean will true false ∧
      flagsOf clean will username false ||| maskConnFlagPassword =
        flagsOf clean will username true) _ _ valid
  · decide +kernel
  · decide +kernel

end Flags

/-- The bits of a will. -/
def WillIntent.bits (will : WillIntent) : QosType × Bool := (will.qos, will.retain)

/-- The fields of a packet and what they are meant to be. -/
structure Meets (msg : Connect) (i : Intent) : Prop where
  flags : msg.connectFlags = flagsOf i.clean (i.will.map WillIntent.bits) i.username.isSome
    i.password.isSome
  keepAlive : msg.keepAlive = i.keepAlive
  clientID : msg.clientID = i.clientID
  valid : validClientID i.clientID = true
  will : ∀ will, i.will = some will →
    msg.willTopic = will.topic ∧ msg.willMessage = will.message ∧ will.qos.isValid = true
  username : ∀ u, i.username = some u → msg.username = u
  password : ∀ p, i.password = some p → msg.password = p
  named : i.named = (msg.username != [])
  secret : i.secret = (msg.password != [])

/-- The properties of a packet and what they are meant to be. -/
structure Object.Holds (v : ProtocolVersion) (o : Object) (properties : List PropertyEntry) :
    Prop where
  version : o.header.version = v
  mType : o.header.mType = .CONNECT
  mFlags : o.header.mFlags = PacketType.CONNECT.defaultFlags
  packetID : o.header.packetID = none
  built : properties.NodupKeys → o.header.properties.Built properties
  allowed : ∀ entry ∈ properties, PropertyID.isValidPacketType entry.1 .CONNECT = true
  old : v ≠ ProtocolV50 → properties = []

section Steps

variable {v : ProtocolVersion} {msg : Connect} {i : Intent}

theorem Meets.bitsValid (meets : msg.Meets i) :
    ∀ qos retain, i.will.map WillIntent.bits = some (qos, retain) → qos.isValid = true := by
  intro qos retain is
  rcases Option.map_eq_some_iff.mp is with ⟨will, there, bits⟩
  have valid := (meets.will will there).2.2
  have qosEq : will.qos = qos := congrArg Prod.fst bits
  rwa [← qosEq]

theorem Meets.setClean (meets : msg.Meets i) (value : Bool) :
    (msg.setClean value).Meets { i with clean := value } := by
  have flags :=
    @flagsOf_setClean i.clean i.username.isSome i.password.isSome _ meets.bitsValid value
  rw [← meets.flags] at flags
  cases value
  · exact ⟨flags, meets.keepAlive, meets.clientID, meets.valid, meets.will, meets.username,
      meets.password, meets.named, meets.secret⟩
  · exact ⟨flags, meets.keepAlive, meets.clientID, meets.valid, meets.will, meets.username,
      meets.password, meets.named, meets.secret⟩

theorem Meets.setClientID (meets : msg.Meets i) (id : Bytes) :
    (msg.setClientID id).1.Meets (i.call v (.clientID id)) := by
  simp only [Connect.setClientID, Intent.call]
  cases validity : validClientID id with
  | false => exact meets
  | true =>
      exact ⟨meets.flags, meets.keepAlive, rfl, validity, meets.will, meets.username,
        meets.password, meets.named, meets.secret⟩

theorem Meets.resetWill (meets : msg.Meets i) : msg.resetWill.Meets { i with will := none } := by
  have flags := @flagsOf_resetWill i.clean i.username.isSome i.password.isSome _ meets.bitsValid
  rw [← meets.flags] at flags
  exact ⟨flags, meets.keepAlive, meets.clientID, meets.valid, by simp, meets.username,
    meets.password, meets.named, meets.secret⟩

theorem Meets.setWill (meets : msg.Meets i) (t : GoString) (m : Bytes) (qos : QosType)
    (retain : Bool) : (msg.setWill t m qos retain).1.Meets (i.call v (.will t m qos retain)) := by
  have reset := meets.resetWill
  have refused : (t.length == 0 || m.length == 0 || !qos.isValid) = true ↔
      t = [] ∨ m = [] ∨ qos.isValid = false := by
    simp [or_assoc]
  simp only [Connect.setWill, Intent.call]
  by_cases bad : t = [] ∨ m = [] ∨ qos.isValid = false
  · rw [if_pos bad, if_pos (refused.mpr bad)]
    exact reset
  · rw [if_neg bad, if_neg fun refuses => bad (refused.mp refuses)]
    have valid : qos.isValid = true := by
      simp only [not_or, Bool.not_eq_false] at bad
      exact bad.2.2
    have flags := @flagsOf_setWill i.clean i.username.isSome i.password.isSome qos valid retain
    have cleared : msg.resetWill.connectFlags = flagsOf i.clean none i.username.isSome
      i.password.isSome := reset.flags
    rw [← cleared] at flags
    refine ⟨flags, meets.keepAlive, meets.clientID, meets.valid, ?_, meets.username,
      meets.password, meets.named, meets.secret⟩
    intro will is
    rw [Option.some.injEq] at is
    subst is
    exact ⟨rfl, rfl, valid⟩

/-- Both bits are cleared before anything is checked. -/
theorem Meets.clearCredentials (meets : msg.Meets i) :
    Meets { msg with connectFlags :=
        (msg.connectFlags &&& ~~~maskConnFlagUsername) &&& ~~~maskConnFlagPassword }
      { i with username := none, password := none } := by
  have flags :=
    (@flagsOf_setCredentials i.clean i.username.isSome i.password.isSome _ meets.bitsValid).1
  rw [← meets.flags] at flags
  exact ⟨flags, meets.keepAlive, meets.clientID, meets.valid, meets.will, by simp, by simp,
    meets.named, meets.secret⟩

theorem Meets.addUsername (meets : msg.Meets i) (noName : i.username = none)
    (noPassword : i.password = none) {u : Bytes} (given : u ≠ []) :
    Meets { msg with connectFlags := msg.connectFlags ||| maskConnFlagUsername, username := u }
      { i with username := some u, named := true } := by
  have flags := (@flagsOf_setCredentials i.clean false false _ meets.bitsValid).2.1
  have before := meets.flags
  rw [noName, noPassword] at before
  change _ = flagsOf i.clean (i.will.map WillIntent.bits) false false at before
  rw [← before] at flags
  refine ⟨?_, meets.keepAlive, meets.clientID, meets.valid, meets.will, ?_, meets.password, ?_,
    meets.secret⟩
  · simpa [noPassword] using flags
  · intro name is
    exact Option.some.inj is
  · simpa using given

theorem Meets.addPassword (meets : msg.Meets i) (noPassword : i.password = none) {p : Bytes}
    (given : p ≠ []) :
    Meets { msg with connectFlags := msg.connectFlags ||| maskConnFlagPassword, password := p }
      { i with password := some p, secret := true } := by
  have flags := (@flagsOf_setCredentials i.clean i.username.isSome false _ meets.bitsValid).2.2
  have before := meets.flags
  rw [noPassword] at before
  change _ = flagsOf i.clean (i.will.map WillIntent.bits) i.username.isSome false at before
  rw [← before] at flags
  refine ⟨flags, meets.keepAlive, meets.clientID, meets.valid, meets.will, meets.username, ?_,
    meets.named, ?_⟩
  · intro secret is
    exact Option.some.inj is
  · simpa using given

/-- The check of the credentials of the calls before. -/
theorem Meets.refuses_iff (meets : msg.Meets i) (v : ProtocolVersion) :
    ((msg.username.length == 0 && msg.password.length != 0) && decide (v < ProtocolV50)) = true ↔
      v < ProtocolV50 ∧ i.secret = true ∧ i.named = false := by
  rw [meets.named, meets.secret]
  simp only [Bool.and_eq_true, beq_iff_eq, bne_iff_ne, decide_eq_true_eq, bne_eq_false_iff_eq,
    List.length_eq_zero_iff, ne_eq]
  tauto

theorem Meets.setCredentials (meets : msg.Meets i) (u p : Bytes) :
    (msg.setCredentials v u p).1.Meets (i.call v (.credentials u p)) := by
  have cleared := meets.clearCredentials
  have locked := meets.refuses_iff v
  have garbled : (u.length != 0 && !utf8Valid u) = true ↔ utf8Valid u = false := by
    cases u with
    | nil => simp [utf8Valid]
    | cons head tail => simp
  simp only [Connect.setCredentials, Intent.call]
  by_cases refused : v < ProtocolV50 ∧ i.secret = true ∧ i.named = false
  · rw [if_pos (locked.mpr refused), if_pos (.inl refused)]
    exact cleared
  · rw [if_neg fun lock => refused (locked.mp lock)]
    by_cases invalid : utf8Valid u = false
    · rw [if_pos (garbled.mpr invalid), if_pos (.inr invalid)]
      exact cleared
    · have accepted : ¬((v < ProtocolV50 ∧ i.secret = true ∧ i.named = false) ∨
          utf8Valid u = false) := fun either => either.elim refused invalid
      rw [if_neg fun bad => invalid (garbled.mp bad), if_neg accepted]
      cases u with
      | nil =>
          cases p with
          | nil => simpa [nonempty] using cleared
          | cons first rest =>
              have added := cleared.addPassword rfl (List.cons_ne_nil first rest)
              have secret : (first :: rest != []) = true := rfl
              simpa [nonempty, secret] using added
      | cons letter name =>
          have named := cleared.addUsername rfl rfl (List.cons_ne_nil letter name)
          have given : (letter :: name != []) = true := rfl
          cases p with
          | nil => simpa [nonempty, given] using named
          | cons first rest =>
              have added := named.addPassword rfl (List.cons_ne_nil first rest)
              have secret : (first :: rest != []) = true := rfl
              simpa [nonempty, given, secret] using added

theorem Object.Holds.propertySet {o : Object} (holds : o.Holds v i.properties) (id : PropertyID)
    (val : PropertyValue) :
    ((Setter.property id val).apply o).1.Holds v (i.call v (.property id val)).properties ∧
      ((Setter.property id val).apply o).1.msg = o.msg := by
  simp only [Setter.apply, Header.propertySet, holds.version, holds.mType, Intent.call]
  by_cases five : v = ProtocolV50
  · rw [if_neg (not_not.mpr five)]
    by_cases valid : PropertyID.isValidPacketType id .CONNECT = true
    · rw [if_pos ⟨five, valid⟩, Property.set_of_allowed valid val]
      refine ⟨⟨rfl, rfl, holds.mFlags, holds.packetID, ?_, ?_, fun old => absurd five old⟩, rfl⟩
      · intro keys
        rw [List.NodupKeys, List.keys, List.map_append, List.nodup_append] at keys
        have fresh : ∀ entry ∈ i.properties, entry.1 ≠ id :=
          fun entry member => keys.2.2 entry.1 (List.mem_map_of_mem member) id (by simp)
        rcases (holds.built keys.1).set valid val fresh with ⟨next, set, built⟩
        rw [Property.set_of_allowed valid val, Except.ok.injEq] at set
        rw [set]
        exact built
      · intro entry member
        rcases List.mem_append.mp member with before | new
        · exact holds.allowed entry before
        · rw [List.mem_singleton] at new
          exact new ▸ valid
    · rcases @Property.set_of_refused o.header.properties .CONNECT id valid val with ⟨e, refused⟩
      rw [if_neg fun both => valid both.2, refused]
      exact ⟨holds, rfl⟩
  · rw [if_pos five, if_neg fun both => five both.1]
    exact ⟨holds, rfl⟩

theorem meets_apply {o : Object} (meets : o.msg.Meets i) (holds : o.Holds v i.properties)
    (setter : Setter) :
    (setter.apply o).1.msg.Meets (i.call v setter) ∧
      (setter.apply o).1.Holds v (i.call v setter).properties := by
  have version := holds.version
  have same : ∀ {msg : Connect}, Object.Holds v { o with msg } i.properties :=
    ⟨holds.version, holds.mType, holds.mFlags, holds.packetID, holds.built, holds.allowed,
      holds.old⟩
  cases setter with
  | clean value => exact ⟨meets.setClean value, same⟩
  | keepAlive value =>
      exact ⟨⟨meets.flags, rfl, meets.clientID, meets.valid, meets.will, meets.username,
        meets.password, meets.named, meets.secret⟩, same⟩
  | clientID id =>
      refine ⟨meets.setClientID id, ?_⟩
      simp only [Intent.call]
      split <;> exact same
  | will t m qos retain => exact ⟨meets.setWill t m qos retain, same⟩
  | resetWill => exact ⟨meets.resetWill, same⟩
  | credentials u p =>
      simp only [Setter.apply, version]
      refine ⟨meets.setCredentials u p, ?_⟩
      simp only [Intent.call]
      split <;> exact same
  | property id val =>
      have set := holds.propertySet id val
      refine ⟨?_, set.1⟩
      rw [set.2]
      simp only [Intent.call]
      split
      · exact ⟨meets.flags, meets.keepAlive, meets.clientID, meets.valid, meets.will,
          meets.username, meets.password, meets.named, meets.secret⟩
      · exact meets

theorem meets_run {o : Object} (meets : o.msg.Meets i) (holds : o.Holds v i.properties)
    (setters : List Setter) :
    (setters.foldl (fun o setter => (setter.apply o).1) o).msg.Meets
        (setters.foldl (Intent.call v) i) ∧
      (setters.foldl (fun o setter => (setter.apply o).1) o).Holds v
        (setters.foldl (Intent.call v) i).properties := by
  induction setters generalizing o i with
  | nil => exact ⟨meets, holds⟩
  | cons setter setters ih =>
      have step := meets_apply meets holds setter
      exact ih step.1 step.2

/-- After any sequence of calls the packet carries what they leave in it. -/
theorem meets_build (v : ProtocolVersion) (setters : List Setter) :
    (build v setters).msg.Meets (intent v setters) ∧
      (build v setters).Holds v (intent v setters).properties := by
  apply meets_run
  · exact ⟨rfl, rfl, rfl, rfl, by simp [Intent.new], by simp [Intent.new], by simp [Intent.new],
      rfl, rfl⟩
  · exact ⟨rfl, rfl, rfl, rfl, fun _ => Property.built_empty, by simp [Intent.new], fun _ => rfl⟩

end Steps

/-- The fields of a packet that go onto the wire; the others are as the decoder leaves them. -/
def onWire (msg : Connect) : Connect :=
  { msg with
    willTopic := if willFlag msg.connectFlags then msg.willTopic else []
    willMessage := if willFlag msg.connectFlags then msg.willMessage else []
    username := if usernameFlag msg.connectFlags then msg.username else []
    password := if passwordFlag msg.connectFlags then msg.password else [] }

section Wire

variable (order : MapOrder PropertyEntry) (h : Header) (msg : Connect)

theorem encodeMessage_onWire : msg.onWire.encodeMessage order h = msg.encodeMessage order h := by
  unfold encodeMessage onWire
  cases protocolName h.version with
  | none => rfl
  | some name =>
      cases willFlag msg.connectFlags <;> cases usernameFlag msg.connectFlags <;>
        cases passwordFlag msg.connectFlags <;> rfl

theorem size_onWire : msg.onWire.size h = msg.size h := by
  unfold size onWire
  cases protocolName h.version with
  | none => rfl
  | some name =>
      cases willFlag msg.connectFlags <;> cases usernameFlag msg.connectFlags <;>
        cases passwordFlag msg.connectFlags <;> rfl

theorem encode_onWire : (Message.control h (.connect msg.onWire)).encode order =
    (Message.control h (.connect msg)).encode order := by
  simp only [Message.encode, Message.fullSize, Message.encodeTo, Message.remainingLength,
    Message.size, Body.size, Message.encodeMessage, Body.encodeMessage, size_onWire,
    encodeMessage_onWire, Message.mType, Message.mFlags]
  rfl

end Wire

/-- A packet with a payload as the decoder leaves it and flags that it accepts is read back. -/
theorem rereads_of_payload (order : MapOrder PropertyEntry) {h : Header} {msg : Connect}
    {name : Bytes} (named : protocolName h.version = some name) (payload : msg.Payload)
    (accepted : rejectFlags h.version msg.connectFlags = none) (exact : h.properties.Exact .CONNECT)
    (absent : ¬ProtocolV50 ≤ h.version → h.properties = .empty)
    (short : msg.size h ≤ 268435455) :
    (Message.control h (.connect msg)).Rereads h.mType h.mFlags
      (fun _ => Connect.decodeMessage { h with version := ProtocolV50, properties := .empty })
      order := by
  have nameValid : utf8Valid name = true ∧ name.length ≤ MaxLPString := by
    unfold protocolName at named
    split at named
    · rw [← Option.some.inj named]
      decide +kernel
    · split at named
      · rw [← Option.some.inj named]
        decide +kernel
      · simp at named
  have unmade : ¬ProtocolV50 ≤ h.version ∨ decide (ProtocolV50 ≤ ProtocolV50) = false →
      h.properties = .empty := by
    rintro (old | never)
    · exact absent old
    · simp at never
  rcases reads_block order exact unmade with ⟨done, reads, same⟩
  refine ⟨rfl, rfl, wireBytes order name h msg,
    .control { h with properties := done } (.connect msg),
    emits_encodeMessage order named nameValid.2 exact payload, length_wireBytes order named exact,
    (length_wireBytes order named exact).trans_le short, ?_, ⟨rfl, rfl, rfl, rfl, rfl, same⟩⟩
  refine ((reads_lpField nameValid.2).bind (Reads.check (by simp [nameValid.1])
    ((reads_byte h.version).bind (Reads.check (by simp [named])
      ((reads_byte msg.connectFlags).bind ?_))))).run
  rw [accepted]
  exact (reads_uint16Field msg.keepAlive).bind (reads.bind (payload.reads _))

/-- Every CONNECT that the decoder accepts has flags and a payload that pass its checks. -/
theorem decodeMessage_checked (h : Header) : (Connect.decodeMessage h).Gives fun m =>
    ∀ k msg, m = .control k (.connect msg) →
      msg.Payload ∧ rejectFlags k.version msg.connectFlags = none := by
  intro src m n run
  simp only [Connect.decodeMessage, reject, Reader.run_bind_eq_ok, Reader.run_check_eq_ok,
    Reader.run_byte_eq_ok] at run
  rcases run with ⟨name, a, _, nameRun, ⟨valid, version, _, _, ⟨-, rfl⟩, ⟨known, flags, _,
    _, ⟨-, rfl⟩, run, rfl⟩, rfl⟩, rfl⟩
  split at run
  · simp at run
  · rename_i accepted
    simp only [Reader.run_bind_eq_ok] at run
    rcases run with ⟨keepAlive, _, _, -, ⟨p, _, _, -, payload, rfl⟩, rfl⟩
    rcases payload_of_read payload with ⟨msg, rfl, rfl, rfl, fields, -⟩
    intro k other same
    simp only [Message.control.injEq, Body.connect.injEq] at same
    rcases same with ⟨rfl, rfl⟩
    exact ⟨fields, accepted⟩

theorem checked_of_decode {v : ProtocolVersion} {buf : Bytes} {k : Header} {msg : Connect} {n : ℕ}
    (decoded : decode v buf = .ok (.control k (.connect msg), n)) :
    msg.Payload ∧ rejectFlags k.version msg.connectFlags = none := by
  rcases buf with _ | ⟨first, rest⟩
  · simp [decode] at decoded
  · have type := decode_mType decoded
    have connect : PacketType.ofFirstByte first = .CONNECT := by
      rw [← type.1]
      simpa [Message.types, Body.types] using type.2
    have gives : ∀ remLen : Int, remLen < 2 ^ 29 →
        (Packet.decodeMessage v (.ofFirstByte first) (first &&& 0x0F) remLen).Gives fun m =>
          ∀ k msg, m = .control k (.connect msg) →
            msg.Payload ∧ rejectFlags k.version msg.connectFlags = none := by
      intro remLen _
      rw [connect]
      exact decodeMessage_checked _
    exact decode_gives gives decoded k msg rfl

/-- `Connect.Will`, whose last result says whether there is a will. -/
def willOf (msg : Connect) : Option WillIntent :=
  if willFlag msg.connectFlags then
    some ⟨msg.willTopic, msg.willMessage, willQos msg.connectFlags, willRetain msg.connectFlags⟩
  else none

def usernameOf (msg : Connect) : Option Bytes :=
  if usernameFlag msg.connectFlags then some msg.username else none

def passwordOf (msg : Connect) : Option Bytes :=
  if passwordFlag msg.connectFlags then some msg.password else none

/-- The packet that the server has read is what was asked for. -/
structure Conveys (v : ProtocolVersion) (i : Request) (k : Header) (msg : Connect) : Prop where
  version : k.version = v
  clean : isClean msg.connectFlags = i.clean
  keepAlive : msg.keepAlive = i.keepAlive
  clientID : msg.clientID = i.clientID
  will : msg.willOf = i.will
  username : msg.usernameOf = i.username
  password : msg.passwordOf = i.password
  properties : ∀ id val, k.properties.get id = some val ↔ (⟨id, val⟩ : PropertyEntry) ∈ i.properties

namespace Request

/-- What the server accepts. -/
structure Sound (v : ProtocolVersion) (i : Request) : Prop where
  identified : i.clientID ≠ [] ∨ i.clean = true
  credentials : v < ProtocolV50 → i.password.isSome → i.username.isSome
  clientID : i.clientID.length ≤ MaxLPString
  will : ∀ will, i.will = some will →
    will.topic.length ≤ MaxLPString ∧ will.message.length ≤ MaxLPString
  username : ∀ u, i.username = some u → u.length ≤ MaxLPString
  password : ∀ p, i.password = some p → p.length ≤ MaxLPString

/-- The length of the packet after its fixed header, if nothing overflows. -/
def wireLength (v : ProtocolVersion) (i : Request) : ℕ :=
  ((protocolName v).map List.length).getD 0 + 6 +
    (if v = ProtocolV50 then (putUvarint (weight i.properties)).length + weight i.properties
      else 0) +
    (2 + i.clientID.length) +
    (i.will.map fun will => 4 + will.topic.length + will.message.length).getD 0 +
    (i.username.map fun u => 2 + u.length).getD 0 + (i.password.map fun p => 2 + p.length).getD 0

end Request

section Read

variable {v : ProtocolVersion} {msg : Connect} {i : Intent}

theorem Meets.bits (meets : msg.Meets i) :
    isClean msg.connectFlags = i.clean ∧ willFlag msg.connectFlags = i.will.isSome ∧
      usernameFlag msg.connectFlags = i.username.isSome ∧
      passwordFlag msg.connectFlags = i.password.isSome := by
  have bits := @flagsOf_bits i.clean i.username.isSome i.password.isSome _ meets.bitsValid
  rw [← meets.flags] at bits
  exact ⟨bits.1, by simpa using bits.2.1, bits.2.2.2.2.1, bits.2.2.2.2.2.1⟩

/-- The flags of a packet that was built are refused only for a password without a user name. -/
theorem Meets.accepted (meets : msg.Meets i)
    (credentials : v < ProtocolV50 → i.password.isSome → i.username.isSome) :
    rejectFlags v msg.connectFlags = none := by
  have bits := @flagsOf_bits i.clean i.username.isSome i.password.isSome _ meets.bitsValid
  rw [← meets.flags] at bits
  rcases bits with ⟨-, will, qos, retain, username, password, reserved⟩
  have refused :
      ¬((!i.username.isSome && i.password.isSome) && decide (v < ProtocolV50)) = true := by
    simp only [Bool.and_eq_true, Bool.not_eq_true', decide_eq_true_eq]
    rintro ⟨⟨noName, given⟩, old⟩
    rw [credentials old given] at noName
    simp at noName
  unfold rejectFlags
  simp only [reserved, will, qos, retain, username, password, ne_eq, not_true_eq_false, if_false,
    if_neg refused]
  cases wanted : i.will with
  | none => simp [QosType.isValid]
  | some will =>
      have valid := (meets.will will wanted).2.2
      simp [WillIntent.bits, valid]

theorem Meets.fields (meets : msg.Meets i) :
    msg.onWire.willOf = i.will ∧ msg.onWire.usernameOf = i.username ∧
      msg.onWire.passwordOf = i.password := by
  have bits := @flagsOf_bits i.clean i.username.isSome i.password.isSome _ meets.bitsValid
  rw [← meets.flags] at bits
  rcases bits with ⟨-, will, qos, retain, username, password, -⟩
  simp only [willOf, usernameOf, passwordOf, onWire, will, qos, retain, username, password]
  refine ⟨?_, ?_, ?_⟩
  · cases wanted : i.will with
    | none => rfl
    | some will =>
        have fields := meets.will will wanted
        simp [WillIntent.bits, fields.1, fields.2.1]
  · cases wanted : i.username with
    | none => rfl
    | some u => simp [meets.username u wanted]
  · cases wanted : i.password with
    | none => rfl
    | some p => simp [meets.password p wanted]

/-- An optional field on the wire. -/
theorem field_of_option {flag : Bool} {field : Bytes} {wanted : Option Bytes}
    (set : flag = wanted.isSome) (is : ∀ value, wanted = some value → field = value)
    (fits : ∀ value, wanted = some value → value.length ≤ MaxLPString) :
    Field flag (if flag then field else []) := by
  cases wanted with
  | none => exact ⟨by simp [set], by simp [set]⟩
  | some value =>
      rw [is value rfl]
      exact ⟨by simpa [set] using fits value rfl, by simp [set]⟩

theorem Meets.payload (meets : msg.Meets i) (sound : i.Sound v) : msg.onWire.Payload := by
  rcases meets.bits with ⟨clean, will, username, password⟩
  have topic := @field_of_option _ msg.willTopic (i.will.map WillIntent.topic) (by simpa using will)
    (by
      intro value is
      rcases Option.map_eq_some_iff.mp is with ⟨wanted, there, rfl⟩
      exact (meets.will wanted there).1)
    (by
      intro value is
      rcases Option.map_eq_some_iff.mp is with ⟨wanted, there, rfl⟩
      exact (sound.will wanted there).1)
  have message := @field_of_option _ msg.willMessage (i.will.map WillIntent.message)
    (by simpa using will)
    (by
      intro value is
      rcases Option.map_eq_some_iff.mp is with ⟨wanted, there, rfl⟩
      exact (meets.will wanted there).2.1)
    (by
      intro value is
      rcases Option.map_eq_some_iff.mp is with ⟨wanted, there, rfl⟩
      exact (sound.will wanted there).2)
  refine ⟨?_, ?_, ?_, topic, message, field_of_option username meets.username sound.username,
    field_of_option password meets.password sound.password⟩
  · change msg.clientID.length ≤ MaxLPString
    rw [meets.clientID]
    exact sound.clientID
  · change ¬(msg.clientID.length == 0 && !isClean msg.connectFlags) = true
    rw [meets.clientID, clean]
    rcases sound.identified with named | isClean
    · simp [named]
    · simp [isClean]
  · change ¬(!validClientID msg.clientID) = true
    rw [meets.clientID, meets.valid]
    simp

theorem Meets.size (meets : msg.Meets i) {h : Header} (version : h.version = v)
    {name : Bytes} (known : protocolName v = some name)
    (length : v = ProtocolV50 → h.properties.fullLen.toNat =
      (putUvarint (weight i.properties)).length + weight i.properties) :
    msg.size h = i.wireLength v := by
  rcases meets.bits with ⟨-, will, username, password⟩
  have five : ProtocolV50 ≤ v ↔ v = ProtocolV50 := by
    unfold protocolName at known
    split at known
    · rename_i is
      rw [is]
      decide
    · split at known
      · rename_i is
        rcases is with is | is <;> rw [is] <;> decide
      · simp at known
  unfold Connect.size Request.wireLength
  simp only [version, known, will, username, password, meets.clientID, Option.map_some,
    Option.getD_some, five]
  have blockEq : (if v = ProtocolV50 then h.properties.fullLen.toNat else 0) =
      if v = ProtocolV50 then (putUvarint (weight i.properties)).length + weight i.properties
      else 0 := by
    split
    · rename_i is
      exact length is
    · rfl
  have willEq :
      (if i.will.isSome then 2 + msg.willTopic.length + 2 + msg.willMessage.length else 0) =
      (i.will.map fun will => 4 + will.topic.length + will.message.length).getD 0 := by
    cases wanted : i.will with
    | none => rfl
    | some will =>
        rw [(meets.will will wanted).1, (meets.will will wanted).2.1]
        simp only [Option.isSome_some, if_true, Option.map_some, Option.getD_some]
        omega
  have usernameEq : (if i.username.isSome then 2 + msg.username.length else 0) =
      (i.username.map fun u => 2 + u.length).getD 0 := by
    cases wanted : i.username with
    | none => rfl
    | some u => simp [meets.username u wanted]
  have passwordEq : (if i.password.isSome then 2 + msg.password.length else 0) =
      (i.password.map fun p => 2 + p.length).getD 0 := by
    cases wanted : i.password with
    | none => rfl
    | some p => simp [meets.password p wanted]
  rw [blockEq, willEq, usernameEq, passwordEq]
  omega

end Read

/-- What a packet that is read as it was asked for shows about the calls. -/
theorem Conveys.sound {v : ProtocolVersion} {i : Request} {k : Header} {msg : Connect}
    (conveys : Conveys v i k msg) (payload : msg.Payload)
    (accepted : rejectFlags k.version msg.connectFlags = none) : i.Sound v := by
  rcases conveys with ⟨version, clean, -, clientID, will, username, password, -⟩
  refine ⟨?_, ?_, clientID ▸ payload.fits, ?_, ?_, ?_⟩
  · have identified := payload.identified
    rw [clientID, clean] at identified
    by_contra neither
    rw [not_or, not_not, Bool.not_eq_true] at neither
    rw [neither.1, neither.2] at identified
    exact identified rfl
  · intro old given
    rw [← password, passwordOf] at given
    rw [← username, usernameOf]
    have set : passwordFlag msg.connectFlags = true := by
      by_contra clear
      rw [if_neg clear] at given
      simp at given
    by_contra missing
    have clear : usernameFlag msg.connectFlags = false := by
      by_contra there
      rw [if_pos (by simpa using there)] at missing
      simp at missing
    rw [version] at accepted
    unfold rejectFlags at accepted
    simp only [set, clear] at accepted
    split at accepted
    · simp at accepted
    · split at accepted
      · simp at accepted
      · split at accepted
        · simp at accepted
        · simp [old] at accepted
  · intro wanted is
    rw [is, willOf] at will
    split at will
    · rw [← Option.some.inj will]
      exact ⟨payload.willTopic.fits, payload.willMessage.fits⟩
    · simp at will
  · intro u is
    rw [is, usernameOf] at username
    split at username
    · rw [← Option.some.inj username]
      exact payload.username.fits
    · simp at username
  · intro p is
    rw [is, passwordOf] at password
    split at password
    · rw [← Option.some.inj password]
      exact payload.password.fits
    · simp at password

/-- A packet that asks for something sound is written as a frame that the server reads as such. -/
theorem framed_build {v : ProtocolVersion} {name : Bytes} (known : protocolName v = some name)
    (setters : List Setter) (once : (intent v setters).properties.NodupKeys)
    (typed : ∀ entry ∈ (intent v setters).properties, Canonical (propertyTypeMap entry.1) entry.2)
    (short : (intent v setters).wireLength v ≤ 268435455) (sound : (intent v setters).Sound v)
    (order : MapOrder PropertyEntry) :
    ∃ (f : Frame) (k : Header) (msg : Connect),
      (Message.control (build v setters).header (.connect (build v setters).msg)).encode order =
        .ok f.bytes ∧ decode ProtocolV50 f.bytes = .ok (.control k (.connect msg), f.bytes.length) ∧
      Conveys v (intent v setters).toRequest k msg := by
  rcases meets_build v setters with ⟨meets, holds⟩
  generalize build v setters = o at meets holds ⊢
  generalize intent v setters = i at meets holds once typed short sound ⊢
  have built := holds.built once
  have few : weight i.properties < 2 ^ 29 := by
    by_cases five : v = ProtocolV50
    · simp only [Request.wireLength, if_pos five] at short
      omega
    · rw [holds.old five]
      decide
  have exact := built.exact typed holds.allowed few
  have absent : ¬ProtocolV50 ≤ o.header.version → o.header.properties = .empty := by
    intro old
    rw [holds.version] at old
    have none := holds.old fun five => old (five ▸ UInt8.le_refl v)
    exact (none ▸ built).eq_empty
  have size : o.msg.onWire.size o.header ≤ 268435455 := by
    rw [size_onWire, meets.size holds.version known ?_]
    · exact short
    · intro five
      have full := Property.toNat_fullLen exact.encodable
      rw [uvarintCalc_eq_length, exact.counted, built.weight_eq] at full
      omega
  have named : protocolName o.header.version = some name := by rwa [holds.version]
  have accepted : rejectFlags o.header.version o.msg.onWire.connectFlags = none := by
    rw [holds.version]
    exact meets.accepted sound.credentials
  have rereads := rereads_of_payload order named (meets.payload sound) accepted exact absent size
  rw [holds.mType, holds.mFlags, holds.packetID] at rereads
  have framed := @Message.Rereads.framed ProtocolV50 order .CONNECT _ _ _ rfl (by decide)
    (by decide) rereads
  rcases framed with ⟨f, encoded, again, decoded, same⟩
  rw [encode_onWire] at encoded
  cases again with
  | publish back => exact absurd same id
  | control k body =>
      rcases same with ⟨version, -, -, -, rfl, properties⟩
      have fields := meets.fields
      refine ⟨f, k, _, encoded, decoded, version.symm.trans holds.version, meets.bits.1,
        meets.keepAlive, meets.clientID, fields.1, fields.2.1, fields.2.2, ?_⟩
      intro id val
      rw [← properties id, ← built.held.mem_iff]
      exact AList.mem_lookup_iff

/-- A password was set and no user name. -/
def Intent.Locked (i : Intent) : Prop := i.named = false ∧ i.secret = true ∧ i.username = none

section Locked

variable {v : ProtocolVersion} {i : Intent}

theorem Intent.named_call (unnamed : i.named = false) {setter : Setter}
    (empty : ∀ u p, setter = .credentials u p → u = [] ∨ utf8Valid u = false) :
    (i.call v setter).named = false := by
  cases setter with
  | clean | keepAlive | will | resetWill => exact unnamed
  | clientID | property =>
      simp only [Intent.call]
      split <;> exact unnamed
  | credentials u p =>
      simp only [Intent.call]
      split
      · exact unnamed
      · rename_i accepted
        rcases empty u p rfl with rfl | invalid
        · simp [unnamed]
        · exact absurd (.inr invalid) accepted

theorem Intent.Locked.call (locked : i.Locked) (old : v < ProtocolV50) (setter : Setter) :
    (i.call v setter).Locked := by
  cases setter with
  | clean | keepAlive | will | resetWill => exact locked
  | clientID | property =>
      simp only [Intent.call]
      split <;> exact locked
  | credentials u p =>
      simp only [Intent.call]
      rw [if_pos (.inl ⟨old, locked.2.1, locked.1⟩)]
      exact ⟨locked.1, locked.2.1, rfl⟩

/-- The call that gives a password and no user name. -/
theorem Intent.locked_of_call (unnamed : i.named = false) {p : Bytes} (given : p ≠ []) :
    (i.call v (.credentials [] p)).Locked := by
  simp only [Intent.call]
  split
  · rename_i refused
    rcases refused with refused | invalid
    · exact ⟨unnamed, refused.2.1, rfl⟩
    · simp [utf8Valid] at invalid
  · refine ⟨by simp [unnamed], ?_, rfl⟩
    cases p with
    | nil => exact absurd rfl given
    | cons first rest => exact Bool.or_true _

/-- No call with a user name can undo a call before it with a password alone. -/
theorem locked_intent (old : v < ProtocolV50) {before after : List Setter} {p : Bytes}
    (given : p ≠ [])
    (unnamed : ∀ u q, Setter.credentials u q ∈ before → u = [] ∨ utf8Valid u = false) :
    (intent v (before ++ .credentials [] p :: after)).Locked := by
  rw [intent, List.foldl_append, List.foldl_cons]
  apply invariant_run Intent.Locked fun i setter locked => locked.call old setter
  apply Intent.locked_of_call _ given
  apply invariant_of_mem (fun i : Intent => i.named = false) _ rfl
  rintro setter member i unnamedSoFar
  apply Intent.named_call unnamedSoFar
  rintro u q rfl
  exact unnamed u q member

end Locked

/-- Some call gives a user name. -/
def GivesUsername (setters : List Setter) : Prop :=
  ∃ u q, Setter.credentials u q ∈ setters ∧ u ≠ [] ∧ utf8Valid u = true

/-- Some call gives a password without a user name, and no call before it gives a user name. -/
def PasswordFirst (setters : List Setter) : Prop :=
  ∃ before p after, setters = before ++ .credentials [] p :: after ∧ p ≠ [] ∧
    ¬GivesUsername before

/-- The request with other credentials. -/
def Request.withCredentials (r : Request) (credentials : Option Bytes × Option Bytes) : Request :=
  { r with username := credentials.1, password := credentials.2 }

section Asked

variable {v : ProtocolVersion} {i : Intent} {setters : List Setter}

theorem PasswordFirst.append (first : PasswordFirst setters) (more : List Setter) :
    PasswordFirst (setters ++ more) := by
  rcases first with ⟨before, p, after, rfl, given, unnamed⟩
  exact ⟨before, p, after ++ more, by simp, given, unnamed⟩

theorem intent_concat (setter : Setter) :
    intent v (setters ++ [setter]) = (intent v setters).call v setter := by
  simp [intent]

theorem lastCall_concat {α : Type} (asks : Setter → Option α) (setter : Setter) :
    lastCall asks (setters ++ [setter]) = (asks setter).or (lastCall asks setters) := by
  unfold lastCall
  cases said : asks setter with
  | none => simp [List.filterMap_append, said]
  | some value => simp [List.filterMap_append, said]

theorem not_givesUsername_iff : ¬GivesUsername setters ↔
    ∀ u q, Setter.credentials u q ∈ setters → u = [] ∨ utf8Valid u = false := by
  simp only [GivesUsername, not_exists, not_and, Bool.not_eq_true]
  refine forall₂_congr fun u q => imp_congr_right fun _ => ?_
  rw [or_iff_not_imp_left]

theorem givesUsername_concat {setter : Setter} : GivesUsername (setters ++ [setter]) ↔
    GivesUsername setters ∨ ∃ u q, setter = .credentials u q ∧ u ≠ [] ∧ utf8Valid u = true := by
  simp only [GivesUsername, List.mem_append, List.mem_singleton, or_and_right, exists_or]
  refine or_congr_right (exists₂_congr fun u q => ?_)
  rw [eq_comm]

/-- The packet has a user name as soon as a call gives one, and no password before. -/
structure Intent.Orderly (setters : List Setter) (i : Intent) : Prop where
  named : GivesUsername setters → i.named = true
  secret : i.secret = true → i.named = true

/-- A call with credentials that does not give a password first. -/
theorem Intent.Orderly.credentials {u p : Bytes} (orderly : i.Orderly setters)
    (ordered : u = [] → p ≠ [] → GivesUsername setters) :
    (i.call v (.credentials u p)).Orderly (setters ++ [.credentials u p]) := by
  simp only [Intent.call]
  split
  · rename_i refused
    rcases refused with ⟨-, given, unnamed⟩ | invalid
    · exact absurd (orderly.secret given) (by simp [unnamed])
    · refine ⟨fun gives => ?_, orderly.secret⟩
      rcases givesUsername_concat.mp gives with before | ⟨name, q, same, -, valid⟩
      · exact orderly.named before
      · cases same
        rw [invalid] at valid
        cases valid
  · have earlier : i.named = true → (i.named || u != []) = true := by
      intro named
      rw [named, Bool.true_or]
    have now : u ≠ [] → (i.named || u != []) = true := by
      intro given
      simp [given]
    refine ⟨fun gives => ?_, fun given => ?_⟩
    · rcases givesUsername_concat.mp gives with before | ⟨name, q, same, given, -⟩
      · exact earlier (orderly.named before)
      · cases same
        exact now given
    · by_cases empty : u = []
      · apply earlier
        rcases Bool.or_eq_true_iff.mp given with before | secret
        · exact orderly.secret before
        · exact orderly.named (ordered empty (by simpa using secret))
      · exact now empty

/-- If no password is given first, no call is refused for the credentials before it. -/
theorem orderly_intent (ordered : ¬PasswordFirst setters) :
    (intent v setters).Orderly setters := by
  -- on the last call: the calls before it do not give a password first either
  induction setters using List.reverseRecOn with
  | nil => exact ⟨by simp [GivesUsername], by simp [intent, Intent.new]⟩
  | append_singleton setters setter ih =>
      have orderly := ih fun first => ordered (first.append _)
      have kept : (∀ u p, setter ≠ .credentials u p) → GivesUsername (setters ++ [setter]) →
          (intent v setters).named = true := by
        intro other gives
        rcases givesUsername_concat.mp gives with before | ⟨u, q, same, -⟩
        · exact orderly.named before
        · exact absurd same (other u q)
      rw [intent_concat]
      cases setter with
      | clean | keepAlive | will | resetWill => exact ⟨kept (by simp), orderly.secret⟩
      | clientID | property =>
          simp only [Intent.call]
          split <;> exact ⟨kept (by simp), orderly.secret⟩
      | credentials u p =>
          apply orderly.credentials
          rintro rfl given
          by_contra unnamed
          exact ordered ⟨setters, p, [], rfl, given, unnamed⟩

/-- What one more call asks for. -/
theorem asked_concat (setter : Setter) : asked v (setters ++ [setter]) =
    { clean := setter.asksClean.getD (asked v setters).clean
      keepAlive := setter.asksKeepAlive.getD (asked v setters).keepAlive
      clientID := setter.asksClientID.getD (asked v setters).clientID
      will := setter.asksWill.getD (asked v setters).will
      username := (setter.asksCredentials.map Prod.fst).getD (asked v setters).username
      password := (setter.asksCredentials.map Prod.snd).getD (asked v setters).password
      properties := (asked v setters).properties ++ (setter.asksProperty v).toList } := by
  have last : [setter].filterMap (Setter.asksProperty v) = (setter.asksProperty v).toList := by
    cases said : setter.asksProperty v <;> simp only [List.filterMap_cons, said] <;> rfl
  unfold asked
  rw [List.filterMap_append, last]
  simp only [lastCall_concat, Option.getD_or]
  cases setter.asksCredentials <;> rfl

/-- A call about something else than the credentials. -/
theorem toRequest_call {setter : Setter} {credentials : Option Bytes × Option Bytes}
    (other : setter.asksCredentials = none)
    (is : i.toRequest = (asked v setters).withCredentials credentials) :
    (i.call v setter).toRequest =
      (asked v (setters ++ [setter])).withCredentials credentials := by
  rw [asked_concat]
  cases setter with
  | credentials u p => simp at other
  | clean | keepAlive | will | resetWill => simp [Intent.call, is, Request.withCredentials]
  | clientID id =>
      cases validity : validClientID id <;>
        simp [Intent.call, is, Request.withCredentials, validity]
  | property id val =>
      by_cases allowed : v = ProtocolV50 ∧ PropertyID.isValidPacketType id .CONNECT = true <;>
        simp [Intent.call, is, Request.withCredentials, allowed]

theorem asked_credentials (u p : Bytes) : asked v (setters ++ [.credentials u p]) =
    (asked v setters).withCredentials
      (if utf8Valid u then (nonempty u, nonempty p) else (none, none)) := by
  rw [asked_concat]
  simp [Request.withCredentials]

theorem toRequest_refused (locked : v < ProtocolV50 ∧ i.secret = true ∧ i.named = false)
    (u p : Bytes) :
    (i.call v (.credentials u p)).toRequest = i.toRequest.withCredentials (none, none) := by
  simp only [Intent.call]
  rw [if_pos (.inl locked)]
  rfl

theorem toRequest_accepted (unlocked : ¬(v < ProtocolV50 ∧ i.secret = true ∧ i.named = false))
    (u p : Bytes) :
    (i.call v (.credentials u p)).toRequest = i.toRequest.withCredentials
      (if utf8Valid u then (nonempty u, nonempty p) else (none, none)) := by
  simp only [Intent.call]
  cases validity : utf8Valid u with
  | false =>
      rw [if_pos (.inr rfl)]
      rfl
  | true =>
      rw [if_neg fun refused => refused.elim unlocked Bool.noConfusion]
      rfl

/-- What the packet carries is what was asked for, or less by the credentials. -/
theorem intent_cases (v : ProtocolVersion) (setters : List Setter) :
    (intent v setters).toRequest = asked v setters ∨
      (v < ProtocolV50 ∧ PasswordFirst setters) ∧
        (intent v setters).toRequest = (asked v setters).withCredentials (none, none) := by
  induction setters using List.reverseRecOn with
  | nil => exact .inl rfl
  | append_singleton setters setter ih =>
      rw [intent_concat]
      cases said : setter.asksCredentials with
      | none =>
          have same : asked v (setters ++ [setter]) =
              (asked v (setters ++ [setter])).withCredentials
                ((asked v setters).username, (asked v setters).password) := by
            rw [asked_concat, said]
            rfl
          rcases ih with is | ⟨⟨old, first⟩, is⟩
          · left
            rw [same]
            exact toRequest_call said is
          · exact .inr ⟨⟨old, first.append _⟩, toRequest_call said is⟩
      | some credentials =>
          cases setter with
          | clean | keepAlive | clientID | will | resetWill | property =>
              simp at said
          | credentials u p =>
              have others : ∀ given, (intent v setters).toRequest.withCredentials given =
                  (asked v setters).withCredentials given := by
                intro given
                rcases ih with is | ⟨-, is⟩ <;> rw [is]
                rfl
              rw [asked_credentials]
              by_cases locked : v < ProtocolV50 ∧ (intent v setters).secret = true ∧
                  (intent v setters).named = false
              · rw [toRequest_refused locked, others]
                refine .inr ⟨⟨locked.1, ?_⟩, rfl⟩
                by_contra ordered
                have named :=
                  (orderly_intent fun first => ordered (first.append _)).secret locked.2.1
                rw [locked.2.2] at named
                exact Bool.false_ne_true named
              · rw [toRequest_accepted locked, others]
                exact .inl rfl

end Asked

/-- The credentials are not given in an order in which they are refused. -/
def InOrder (v : ProtocolVersion) (setters : List Setter) : Prop :=
  v < ProtocolV50 → PasswordFirst setters → (asked v setters).username = none

/-- Without credentials nothing more is asked for. -/
theorem Request.Sound.withoutCredentials {v : ProtocolVersion} {r : Request} (sound : r.Sound v) :
    (r.withCredentials (none, none)).Sound v :=
  ⟨sound.identified, fun _ given => given, sound.clientID, sound.will, by
    simp [Request.withCredentials], by simp [Request.withCredentials]⟩

theorem Request.wireLength_withoutCredentials (v : ProtocolVersion) (r : Request) :
    (r.withCredentials (none, none)).wireLength v ≤ r.wireLength v := by
  simp only [Request.wireLength, Request.withCredentials, Option.map_none, Option.getD_none]
  omega

/-- A packet that was built with any calls of the setters, errors or not, is read by the server
exactly as the calls ask for, in every iteration order of its properties, if and only if they ask
for an identifier or a clean session, for no password without a user name before V5.0, and for
fields that fit, and before V5.0 no user name is asked for after a password without one. -/
theorem decode_build_iff {v : ProtocolVersion} {name : Bytes} (known : protocolName v = some name)
    (setters : List Setter) (once : (asked v setters).properties.NodupKeys)
    (typed : ∀ entry ∈ (asked v setters).properties, Canonical (propertyTypeMap entry.1) entry.2)
    (short : (asked v setters).wireLength v ≤ 268435455) (order : MapOrder PropertyEntry) :
    (∃ buf k msg, (Message.control (build v setters).header (.connect (build v setters).msg)).encode
        order = .ok buf ∧ decode ProtocolV50 buf = .ok (.control k (.connect msg), buf.length) ∧
        Conveys v (asked v setters) k msg) ↔
      (asked v setters).Sound v ∧ InOrder v setters := by
  constructor
  · rintro ⟨buf, k, msg, encoded, decoded, conveys⟩
    have checked := checked_of_decode decoded
    have sound := conveys.sound checked.1 checked.2
    refine ⟨sound, ?_⟩
    rintro old ⟨before, p, after, rfl, given, unnamed⟩
    have locked := @locked_intent v old before after p given (not_givesUsername_iff.mp unnamed)
    rcases intent_cases v (before ++ .credentials [] p :: after) with is | ⟨-, is⟩
    · rw [← is]
      exact locked.2.2
    · -- the packet has no credentials, and the server has read that
      have fewer := Request.wireLength_withoutCredentials v
        (asked v (before ++ .credentials [] p :: after))
      rcases framed_build known (before ++ .credentials [] p :: after) (by rwa [is]) (by rwa [is])
        (by rw [is]; exact fewer.trans short) (by rw [is]; exact sound.withoutCredentials) order
        with ⟨f, other, less, encodes, decodes, carries⟩
      have bytes : f.bytes = buf := Except.ok.inj (encodes.symm.trans encoded)
      rw [bytes, decoded] at decodes
      simp only [Except.ok.injEq, Prod.mk.injEq, Message.control.injEq, Body.connect.injEq]
        at decodes
      rw [← conveys.username, decodes.1.2, carries.username, is]
      rfl
  · rintro ⟨sound, inOrder⟩
    have same : (intent v setters).toRequest = asked v setters := by
      rcases intent_cases v setters with is | ⟨⟨old, first⟩, is⟩
      · exact is
      · have noName := inOrder old first
        have noPassword : (asked v setters).password = none := by
          by_contra some
          have named := sound.credentials old (Option.isSome_iff_ne_none.mpr some)
          simp [noName] at named
        have none : ((none, none) : Option Bytes × Option Bytes) =
            ((asked v setters).username, (asked v setters).password) := by
          rw [noName, noPassword]
        rw [is, none]
        rfl
    rcases framed_build known setters (by rwa [same]) (by rwa [same]) (by rwa [same])
      (by rwa [same]) order with ⟨f, k, msg, encoded, decoded, conveys⟩
    exact ⟨f.bytes, k, msg, encoded, decoded, same ▸ conveys⟩

/-- The calls of a client of V3.1.1 with a will and credentials. -/
def sampleSetters : List Setter :=
  [.clientID (ascii "c1"), .credentials (ascii "u") [1], .will (ascii "a/b") [2] QoS1 true,
    .keepAlive 60, .clientID [0]]

theorem sampleSetters_sound : (intent ProtocolV311 sampleSetters).Sound ProtocolV311 := by
  refine ⟨.inl (by decide), fun _ _ => by decide, by decide, ?_, ?_, ?_⟩
  · intro will is
    rw [← Option.some.inj is]
    decide
  · intro u is
    rw [← Option.some.inj is]
    decide
  · intro p is
    rw [← Option.some.inj is]
    decide

theorem asked_sampleSetters :
    asked ProtocolV311 sampleSetters = (intent ProtocolV311 sampleSetters).toRequest := by
  rfl

theorem inOrder_sampleSetters : InOrder ProtocolV311 sampleSetters := by
  rintro - ⟨before, p, after, is, -, -⟩
  have member : Setter.credentials [] p ∈ sampleSetters := by
    rw [is]
    simp
  simp [sampleSetters, ascii] at member

theorem decode_build_sampleSetters : ∃ buf k msg,
    (Message.control (build ProtocolV311 sampleSetters).header
        (.connect (build ProtocolV311 sampleSetters).msg)).encode (.insertion _) = .ok buf ∧
      decode ProtocolV50 buf = .ok (.control k (.connect msg), buf.length) ∧
      Conveys ProtocolV311 (asked ProtocolV311 sampleSetters) k msg := by
  have known : protocolName ProtocolV311 = some (ascii "MQTT") := by decide
  have once : (asked ProtocolV311 sampleSetters).properties.keys.Nodup := by decide
  have typed : ∀ entry ∈ (asked ProtocolV311 sampleSetters).properties,
      Canonical (propertyTypeMap entry.1) entry.2 := by
    intro entry member
    exact absurd member List.not_mem_nil
  have sound : (asked ProtocolV311 sampleSetters).Sound ProtocolV311 := by
    rw [asked_sampleSetters]
    exact sampleSetters_sound
  exact (decode_build_iff known sampleSetters once typed (by decide) (.insertion _)).mpr
    ⟨sound, inOrder_sampleSetters⟩

/-- In the versions before 5.0 a call with a password and no user name, before any call with a user
name, is not refused. It makes every later call of `SetCredentials` fail, and the packet never gets
a user name. -/
theorem refused_after_password {v : ProtocolVersion} (old : v < ProtocolV50)
    {before after : List Setter} {p : Bytes} (given : p ≠ [])
    (unnamed : ∀ u q, Setter.credentials u q ∈ before → u = [] ∨ utf8Valid u = false) :
    usernameFlag (build v (before ++ .credentials [] p :: after)).msg.connectFlags = false ∧
      ∀ u q, ((Setter.credentials u q).apply (build v (before ++ .credentials [] p :: after))).2 =
        some .ErrInvalidArgs := by
  rcases meets_build v (before ++ .credentials [] p :: after) with ⟨meets, holds⟩
  have locked := @locked_intent v old before after p given unnamed
  generalize build v _ = o at meets holds ⊢
  generalize intent v _ = i at meets holds locked
  have refused := (meets.refuses_iff o.header.version).mpr
    ⟨holds.version.symm ▸ old, locked.2.1, locked.1⟩
  refine ⟨?_, ?_⟩
  · rw [meets.bits.2.2.1, locked.2.2]
    rfl
  · intro u q
    simp only [Setter.apply, setCredentials]
    rw [if_pos refused]

theorem refused_after_password_sample :
    ((Setter.credentials (ascii "u") [1]).apply (build ProtocolV311 ([.clientID (ascii "c1")] ++
      .credentials [] [1] :: [.credentials (ascii "u") [1]]))).2 = some .ErrInvalidArgs :=
  (refused_after_password (by decide) (by decide) (by simp)).2 (ascii "u") [1]

end Connect

end VolantMQ.Packet
