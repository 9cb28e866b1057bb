import VolantMQ.Clients.Stop
import VolantMQ.Subscriber.Delivery

/-!
# The will that is published

The will of a CONNECT packet becomes a PUBLISH packet when the session is configured. `getWill`
makes it with `Publish.Set`, which has its own opinion about topics and whose error is dropped. The
session hands the packet to the topics manager as a publication, whatever its retain flag.
-/

namespace VolantMQ.Clients

open Lib Packet

/-- `getWill`; an error of `Set` is ignored. -/
def getWill (h : Header) (pkt : Packet.Connect) : Option Publish :=
  if Packet.Connect.willFlag pkt.connectFlags then
    let blank := Publish.new h.version
    some <|
      match blank.set pkt.willTopic pkt.willMessage (Packet.Connect.willQos pkt.connectFlags)
        (Packet.Connect.willRetain pkt.connectFlags) false with
      | .ok willPkt => willPkt
      | .error _ => blank
  else none

/-- A property of a CONNECT packet that is a 32-bit value, as `readSessionProperties` gets it. -/
def readInt (h : Header) (id : PropertyID) : Option UInt32 :=
  (h.propertyGet id).bind fun prop => prop.asInt.toOption

/-- What `configureSession` takes from a CONNECT packet for the session. -/
def request (h : Header) (pkt : Packet.Connect) : Connect Publish :=
  { version := h.version
    clean := Packet.Connect.isClean pkt.connectFlags
    will := getWill h pkt
    sessionExpiry := readInt h PropertySessionExpiryInterval
    willDelayInterval := (readInt h PropertyWillDelayInterval).getD 0 }

/-- The methods of `types.TopicMessenger` that take a message. -/
inductive MessengerCall where
  | Publish (m : Publish)
  | Retain (m : Publish)

/-- The calls of the topics manager in an event. `onDisconnect` and `timerCallback` call `Publish`
and nothing else. -/
def Event.calls : Event Publish → List MessengerCall
  | .publish will => [.Publish will]
  | .shutdownSubscriber => []
  | .signalClose _ => []

/-- The calls of the topics manager in an episode. -/
def Episode.calls (episode : Episode Publish) : List MessengerCall :=
  episode.events.flatMap fun event => event.2.calls

/-- Every message that is published is the will of the CONNECT packet, and it is retained if that
was asked for. -/
def PublishesWill (pkt : Packet.Connect) (episode : Episode Publish) : Prop :=
  ∀ m, .Publish m ∈ episode.calls →
    (m.topic = pkt.willTopic ∧ m.payload = pkt.willMessage ∧
      m.qos = Packet.Connect.willQos pkt.connectFlags ∧
      m.retain = Packet.Connect.willRetain pkt.connectFlags) ∧
    (Packet.Connect.willRetain pkt.connectFlags = true → .Retain m ∈ episode.calls)

namespace Timeline

/-- `loadSession` when the id is online and may be replaced: the session is stopped and a new one
takes its place. An offline session is resumed. -/
def takeover (s : Timeline Publish) (request : Connect Publish) (hasSubscriptions : Bool)
    (order : MapOrder PropertyEntry) : Timeline Publish :=
  match s.current with
  | none => s.connect request
  | some episode =>
      if s.session.isOnline then
        let ending : Ending := ⟨true, none, hasSubscriptions⟩
        match s.session.stop s.now order
          ⟨episode.request.expireAt ending, true, hasSubscriptions⟩ with
        | .error _ => s
        | .ok (session, events, _) =>
            let s := ({ s with current := some { episode with ended := some (s.now, ending) } } :
              Timeline Publish).record (session, events)
            s.begin (.new s.now) request
      else s.connect request

/-- What can happen on a broker that lets connections be replaced. -/
inductive Turn where
  | op (op : Op Publish)
  | takeover (request : Connect Publish) (hasSubscriptions : Bool) (order : MapOrder PropertyEntry)

def turn (s : Timeline Publish) : Turn → Timeline Publish
  | .op op => s.step op
  | .takeover request hasSubscriptions order => s.takeover request hasSubscriptions order

end Timeline

/-- A session publishes nothing but its will, and gets no other. -/
structure Session.Voices {ω : Type} (s : Session ω) (result : Session ω × List (Event ω)) :
    Prop where
  published : ∀ m, .publish m ∈ result.2 → s.will = some m
  kept : ∀ m, result.1.will = some m → s.will = some m

section Voices

variable {ω : Type} {s : Session ω}

theorem Session.voices_quiet {next : Session ω} {events : List (Event ω)}
    (kept : next.will = s.will ∨ next.will = none) (quiet : ∀ m, .publish m ∉ events) :
    s.Voices (next, events) := by
  refine ⟨fun m published => absurd published (quiet m), fun m holds => ?_⟩
  rcases kept with same | none
  · exact same ▸ holds
  · rw [none] at holds
    cases holds

theorem Session.Voices.append {next last : Session ω} {first second : List (Event ω)}
    (before : s.Voices (next, first)) (after : next.Voices (last, second)) :
    s.Voices (last, first ++ second) := by
  refine ⟨fun m published => ?_, fun m holds => before.kept m (after.kept m holds)⟩
  rcases List.mem_append.mp published with early | late
  · exact before.published m early
  · exact before.kept m (after.published m late)

theorem Session.voices_publish {next : Session ω} (silent : next.will = none) :
    s.Voices (next, s.will.toList.map .publish) := by
  refine ⟨fun m published => ?_, fun m holds => ?_⟩
  · rcases List.mem_map.mp published with ⟨will, member, same⟩
    cases same
    exact Option.mem_toList.mp member
  · rw [silent] at holds
    cases holds

theorem Session.voices_beginDisconnect (s : Session ω) (p : DisconnectParams) :
    s.Voices (s.beginDisconnect p) := by
  simp only [Session.beginDisconnect]
  split <;> split
  · exact Session.voices_publish rfl
  · exact Session.voices_quiet (.inl rfl) (by simp)
  · exact Session.voices_publish rfl
  · exact Session.voices_quiet (.inl rfl) (by simp)

theorem Session.voices_releaseSubscriber (s : Session ω) (p : DisconnectParams) :
    s.Voices (s.releaseSubscriber p) := by
  unfold Session.releaseSubscriber
  split
  · exact Session.voices_quiet (.inl rfl) (by simp)
  · exact Session.voices_quiet (.inl rfl) (by simp)

theorem Session.will_runExpiry (s : Session ω) (now : Int) (will : Bool) :
    (s.runExpiry now will).will = s.will ∨ (s.runExpiry now will).will = none := by
  have delayed : (s.delayWill will).1.will = s.will ∨ (s.delayWill will).1.will = none := by
    unfold Session.delayWill
    split
    · exact .inl rfl
    · exact .inr rfl
  have split : ∀ (s : Session ω) period, (s.splitExpiry period).1.will = s.will := by
    intro s period
    unfold Session.splitExpiry
    split
    · rfl
    · split <;> rfl
  change ((s.delayWill will).1.splitExpiry (s.delayWill will).2).1.will = s.will ∨
    ((s.delayWill will).1.splitExpiry (s.delayWill will).2).1.will = none
  rw [split]
  exact delayed

theorem Session.voices_endDisconnect (s : Session ω) (now : Int) (p : DisconnectParams) :
    s.Voices (s.endDisconnect now p) := by
  unfold Session.endDisconnect
  split
  · exact Session.voices_quiet (.inl rfl) (by simp)
  · split
    · exact Session.voices_quiet (.inl rfl) (by simp)
    · split
      · exact Session.voices_quiet (Session.will_runExpiry _ now p.Will) (by simp)
      · exact Session.voices_quiet (.inl rfl) (by simp)

theorem Session.voices_onDisconnect (s : Session ω) (now : Int) (p : DisconnectParams) :
    s.Voices (s.onDisconnect now p) :=
  ((s.voices_beginDisconnect p).append (Session.voices_releaseSubscriber _ p)).append
    (Session.voices_endDisconnect _ now p)

theorem Session.voices_timerCallback (s : Session ω) (now : Int) :
    s.Voices (s.timerCallback now) := by
  rcases s with
    ⟨created, subscriber, will, expireIn, willDelay, kill, since, timer, finalized, online, subs⟩
  cases will <;> cases expireIn with
  | none => constructor <;> simp [Session.timerCallback, Session.finalize]
  | some val =>
      by_cases zero : val = 0
      · cases subscriber <;> constructor <;>
          simp [Session.timerCallback, Session.finalize, zero]
      · constructor <;> simp [Session.timerCallback, zero]

theorem Session.voices_fire (s : Session ω) (now : Int) : s.Voices (s.fire now) := by
  unfold Session.fire
  split
  · split
    · exact s.voices_timerCallback now
    · exact Session.voices_quiet (.inl rfl) (by simp)
  · exact Session.voices_quiet (.inl rfl) (by simp)

/-- `stop` publishes nothing that disconnecting would not. -/
theorem Session.published_stop {s after : Session Publish} {now : Int}
    {order : MapOrder PropertyEntry} {p : DisconnectParams} {events : List (Event Publish)}
    {state : StoppedState} (run : s.stop now order p = .ok (after, events, state)) :
    ∀ m, .publish m ∈ events → s.will = some m := by
  have disconnected : s.Voices
      (if s.isOnline then s.onDisconnect now { p with Will := true } else (s, [])) := by
    split
    · exact s.voices_onDisconnect now _
    · exact Session.voices_quiet (.inl rfl) (by simp)
  have closed : ∀ next : Session Publish, ∀ m, .publish m ∉
      (if next.finalized then (next, []) else next.finalize .shutdown).2 := by
    intro next m
    split <;> simp [Session.finalize]
  unfold Session.stop at run
  generalize (if s.isOnline then s.onDisconnect now { p with Will := true } else (s, [])) =
    outcome at disconnected run
  dsimp only at run
  split at run
  · cases run
  · intro m published
    rw [← (Prod.mk.inj (Prod.mk.inj (Except.ok.inj run)).2).1] at published
    rcases List.mem_append.mp published with early | late
    · exact disconnected.published m early
    · exact absurd late (closed { outcome.1 with timer := none } m)

end Voices

namespace Timeline

/-- Every message that was published is the will of the connection it was published for, and so is
the will that the session still has. -/
structure Owned {ω : Type} (s : Timeline ω) : Prop where
  published : ∀ episode ∈ s.episodes, ∀ t m, (t, .publish m) ∈ episode.events →
    episode.request.will = some m
  will : ∀ m, s.session.will = some m →
    ∃ episode, s.current = some episode ∧ episode.request.will = some m

section Owned

variable {ω : Type} {s : Timeline ω}

theorem owned_new (now : Int) : (new now : Timeline ω).Owned :=
  ⟨by simp [new, episodes], by simp [new, Session.new]⟩

theorem Owned.mem_current (owned : s.Owned) {episode : Episode ω}
    (held : s.current = some episode) : ∀ t m, (t, .publish m) ∈ episode.events →
      episode.request.will = some m :=
  owned.published episode (List.mem_append.mpr (.inr (by simp [held])))

/-- The current connection ends. -/
theorem Owned.ends (owned : s.Owned) {episode : Episode ω} (held : s.current = some episode)
    (ended : Option (Int × Ending)) :
    ({ s with current := some { episode with ended } } : Timeline ω).Owned := by
  refine ⟨?_, ?_⟩
  · intro other member
    rcases List.mem_append.mp member with old | now
    · exact owned.published other (List.mem_append.mpr (.inl old))
    · rw [Option.toList_some, List.mem_singleton] at now
      rw [now]
      exact fun t m published => owned.mem_current held t m published
  · intro m holds
    rcases owned.will m holds with ⟨before, same, mine⟩
    rw [held, Option.some.injEq] at same
    exact ⟨_, rfl, same ▸ mine⟩

/-- The session does something. -/
theorem Owned.record (owned : s.Owned) {result : Session ω × List (Event ω)}
    (voices : s.session.Voices result) : (s.record result).Owned := by
  refine ⟨?_, ?_⟩
  · intro episode member t m published
    rcases List.mem_append.mp member with old | now
    · exact owned.published episode (List.mem_append.mpr (.inl old)) t m published
    · rcases Option.map_eq_some_iff.mp (Option.mem_toList.mp now) with ⟨before, held, rfl⟩
      rcases List.mem_append.mp published with earlier | new
      · exact owned.mem_current held t m earlier
      · rcases List.mem_map.mp new with ⟨event, member, same⟩
        rcases owned.will m (voices.published m ((Prod.mk.inj same).2 ▸ member)) with
          ⟨mine, current, will⟩
        rw [held, Option.some.injEq] at current
        exact current ▸ will
  · intro m holds
    rcases owned.will m (voices.kept m holds) with ⟨episode, held, mine⟩
    refine ⟨{ episode with events := episode.events ++ result.2.map fun event => (s.now, event) },
      ?_, mine⟩
    rw [Timeline.record, held, Option.map_some]

/-- Another connection begins. -/
theorem Owned.begin (owned : s.Owned) (session : Session ω) (request : Connect ω) :
    (s.begin session request).Owned := by
  refine ⟨?_, fun m holds => ⟨_, rfl, holds⟩⟩
  intro episode member
  rcases List.mem_append.mp member with old | now
  · rcases List.mem_append.mp old with older | last
    · exact owned.published episode (List.mem_append.mpr (.inl older))
    · rcases Option.map_eq_some_iff.mp (Option.mem_toList.mp last) with ⟨before, held, rfl⟩
      exact fun t m published => owned.mem_current held t m published
  · rw [Timeline.begin, Option.toList_some, List.mem_singleton] at now
    simp [now]

theorem Owned.connect (owned : s.Owned) (request : Connect ω) : (s.connect request).Owned := by
  unfold Timeline.connect
  split
  · exact owned
  · exact owned.begin _ request
  · exact owned.begin _ request

theorem Owned.settle (owned : s.Owned) : s.settle.Owned := owned.record (s.session.voices_fire s.now)

theorem Owned.step (owned : s.Owned) (op : Op ω) : (s.step op).Owned := by
  cases op with
  | connect request => exact owned.connect request
  | disconnect ending =>
      change (s.disconnect ending).Owned
      unfold Timeline.disconnect
      split
      · rename_i episode held
        split
        · exact ((owned.ends held _).record (s.session.voices_onDisconnect s.now _)).settle
        · exact owned
      · exact owned
  | tick =>
      have later : ({ s with now := s.now + 1 } : Timeline ω).Owned :=
        ⟨owned.published, owned.will⟩
      exact later.settle

end Owned

/-- A takeover publishes the will of the connection that is taken over, if any. -/
theorem Owned.takeover {s : Timeline Publish} (owned : s.Owned) (request : Connect Publish)
    (hasSubscriptions : Bool) (order : MapOrder PropertyEntry) :
    (s.takeover request hasSubscriptions order).Owned := by
  unfold Timeline.takeover
  split
  · exact owned.connect request
  · rename_i episode held
    split
    · dsimp only
      split
      · exact owned
      · rename_i session events state run
        -- the stopped session is thrown away, so its will does not matter
        have told : s.session.Voices ({ session with will := none }, events) :=
          ⟨Session.published_stop run, by simp⟩
        have recorded := (owned.ends held (some (s.now, ⟨true, none, hasSubscriptions⟩))).record told
        have anew := recorded.begin (.new s.now) request
        exact ⟨anew.published, anew.will⟩
    · exact owned.connect request

theorem owned_run (start : Int) (turns : List Turn) : (turns.foldl turn (new start)).Owned := by
  refine invariant_run Owned ?_ (owned_new start) turns
  intro s input owned
  cases input with
  | op op => exact owned.step op
  | takeover request hasSubscriptions order =>
      exact owned.takeover request hasSubscriptions order

end Timeline

section Accepted

variable {h : Header} {pkt : Packet.Connect}

/-- What the decoder has checked of a CONNECT packet that concerns its will. -/
structure Accepted (h : Header) (pkt : Packet.Connect) : Prop where
  version : h.version ≤ ProtocolV50
  qos : (Packet.Connect.willQos pkt.connectFlags).isValid = true

/-- A packet whose will, if it is a CONNECT packet, has been checked. -/
def Checked (m : Message) : Prop := ∀ h pkt, m = .control h (.connect pkt) → Accepted h pkt

theorem version_le_of_supported {version : ProtocolVersion} {name : GoString}
    (supported : protocolName version = some name) : version ≤ ProtocolV50 := by
  unfold protocolName at supported
  split at supported
  · rename_i v31
    rw [v31]
    decide
  · split at supported
    · rename_i later
      rcases later with rfl | rfl <;> decide
    · cases supported

theorem checked_decodeMessage (h : Header) :
    (Packet.Connect.decodeMessage h).Gives Checked := by
  refine .bind fun protoName => .ite (Reader.gives_fail _) (.bind fun version => ?_)
  split
  · exact Reader.gives_fail _
  · rename_i supported
    refine .bind fun connectFlags => ?_
    split
    · exact Reader.gives_fail _
    · rename_i fine
      have qos : (Packet.Connect.willQos connectFlags).isValid = true := by
        by_contra invalid
        rw [Bool.not_eq_true] at invalid
        simp only [Packet.Connect.rejectFlags, invalid] at fine
        split at fine <;> simp at fine
      refine .bind fun keepAlive => .bind fun properties => .bind fun clientID => ?_
      refine .ite (Reader.gives_fail _) (.ite (Reader.gives_fail _) ?_)
      refine .bind fun _ => .bind fun _ => .bind fun _ => .bind fun _ => Reader.gives_pure ?_
      rintro after pkt ⟨⟩
      exact ⟨version_le_of_supported (not_not.mp supported), qos⟩

/-- No other decoder makes a CONNECT packet. -/
theorem decodeMessage_checked (v : ProtocolVersion) (t : PacketType) (mFlags : UInt8)
    (remLen : Int) : (decodeMessage v t mFlags remLen).Gives Checked := by
  by_cases announced : t = .CONNECT
  · subst announced
    exact checked_decodeMessage _
  · rintro src m n run h pkt rfl
    have made := (decodeMessage_gives v t mFlags remLen src _ n run).2
    exact absurd (List.mem_singleton.mp made) announced

theorem accepted_of_decode {v : ProtocolVersion} {buf : Bytes} {n : ℕ}
    (decoded : decode v buf = .ok (.control h (.connect pkt), n)) : Accepted h pkt := by
  cases buf with
  | nil => simp [decode] at decoded
  | cons first rest =>
      exact decode_gives (fun remLen _ => decodeMessage_checked v _ _ remLen) decoded h pkt rfl

/-- What is read back from the flags that `Set` writes into a new packet. -/
theorem retain_cloneFlags {qos : QosType} (valid : qos.isValid = true) (retain : Bool) :
    Subscriber.flagsQoS (Publish.cloneFlags qos retain) = qos ∧
      ((Publish.cloneFlags qos retain &&& Publish.maskPublishFlagRetain) != 0) = retain := by
  rcases Subscriber.eq_of_isValid valid with rfl | rfl | rfl <;> cases retain <;> decide

/-- A will with a valid topic becomes the packet that was asked for. -/
theorem getWill_of_valid (accepted : Accepted h pkt)
    (flag : Packet.Connect.willFlag pkt.connectFlags = true)
    (valid : validTopic pkt.willTopic = true) :
    ∃ m, getWill h pkt = some m ∧ m.topic = pkt.willTopic ∧ m.payload = pkt.willMessage ∧
      m.qos = Packet.Connect.willQos pkt.connectFlags ∧
      m.retain = Packet.Connect.willRetain pkt.connectFlags := by
  have flags := retain_cloneFlags accepted.qos (Packet.Connect.willRetain pkt.connectFlags)
  refine ⟨{ Publish.new h.version with
    topic := pkt.willTopic
    payload := pkt.willMessage
    mFlags := Publish.cloneFlags (Packet.Connect.willQos pkt.connectFlags)
      (Packet.Connect.willRetain pkt.connectFlags) }, ?_, rfl, rfl, flags.1, flags.2⟩
  simp [getWill, flag, Publish.set, valid, accepted.qos, Publish.cloneFlags, Publish.new]

/-- A will with any other topic becomes an empty packet. -/
theorem getWill_of_invalid (flag : Packet.Connect.willFlag pkt.connectFlags = true)
    (invalid : validTopic pkt.willTopic = false) :
    getWill h pkt = some (Publish.new h.version) := by
  simp [getWill, flag, Publish.set, invalid]

end Accepted

section Calls

variable {episode : Episode Publish} {m : Publish}

theorem publish_mem_calls : .Publish m ∈ episode.calls ↔ ∃ t, (t, .publish m) ∈ episode.events := by
  constructor
  · intro called
    rcases List.mem_flatMap.mp called with ⟨⟨t, event⟩, member, mine⟩
    cases event with
    | publish will =>
        rw [Event.calls, List.mem_singleton] at mine
        cases mine
        exact ⟨t, member⟩
    | shutdownSubscriber => cases mine
    | signalClose reason => cases mine
  · rintro ⟨t, member⟩
    exact List.mem_flatMap.mpr ⟨_, member, List.mem_singleton_self _⟩

/-- A session retains nothing. -/
theorem retain_notMem_calls : .Retain m ∉ episode.calls := by
  intro called
  rcases List.mem_flatMap.mp called with ⟨⟨t, event⟩, member, mine⟩
  cases event with
  | publish will =>
      rw [Event.calls, List.mem_singleton] at mine
      cases mine
  | shutdownSubscriber => cases mine
  | signalClose reason => cases mine

end Calls

/-- A connection that is lost, with a session that does not outlive it. -/
def lose (req : Connect Publish) : List (Timeline.Op Publish) :=
  [.connect req, .disconnect ⟨true, some 0, true⟩]

/-- Such a connection publishes its will, whatever its delay. -/
theorem published_lose {req : Connect Publish} (known : req.version ≤ ProtocolV50) {m : Publish}
    (will : req.will = some m) :
    ∃ episode ∈ ((lose req).foldl Timeline.step (.new 0)).episodes,
      episode.request = req ∧ .Publish m ∈ episode.calls := by
  have prompt : req.willDue ⟨true, some 0, true⟩ 0 = 0 := by
    rw [Connect.willDue, if_pos]
    by_cases v50 : req.version = ProtocolV50
    · right
      right
      simp [Connect.expireAt, v50]
    · left
      have old : ¬ProtocolV50 ≤ req.version := fun least => v50 (UInt8.le_antisymm known least)
      simp [Connect.reConfig, old]
  have shown : ∃ events, ((lose req).foldl Timeline.step (.new 0)).current =
      some ⟨req, some (0, ⟨true, some 0, true⟩), none, events⟩ := ⟨_, rfl⟩
  rcases shown with ⟨events, held⟩
  have member : ⟨req, some (0, ⟨true, some 0, true⟩), none, events⟩ ∈
      ((lose req).foldl Timeline.step (.new 0)).episodes :=
    List.mem_append.mpr (.inr (by simp [held]))
  have law := (Timeline.timerLaw_run 0 (lose req)).1 _ member
  have due := law.due 0 ⟨true, some 0, true⟩ m rfl rfl will (by rw [prompt]; exact le_refl _)
  refine ⟨_, member, rfl, publish_mem_calls.mpr ?_⟩
  rcases List.mem_filterMap.mp due with ⟨⟨t, event⟩, found, shape⟩
  cases event with
  | publish other =>
      rw [Event.published?, Option.some.injEq, Prod.mk.injEq] at shape
      exact ⟨t, shape.2 ▸ found⟩
  | shutdownSubscriber => cases shape
  | signalClose reason => cases shape

/-- For every CONNECT packet with a will that the decoder accepts, every message published for it in
every timeline is the will as it was asked for, and is retained if that was asked for, exactly when
it was not asked for and the will topic is valid as a topic name. -/
theorem publishesWill_iff {v : ProtocolVersion} {buf : Bytes} {h : Header} {pkt : Packet.Connect}
    {n : ℕ} (decoded : decode v buf = .ok (.control h (.connect pkt), n))
    (flag : Packet.Connect.willFlag pkt.connectFlags = true) :
    (∀ (start : Int) (turns : List Timeline.Turn),
        ∀ episode ∈ (turns.foldl Timeline.turn (.new start)).episodes,
        episode.request = request h pkt → PublishesWill pkt episode) ↔
      Packet.Connect.willRetain pkt.connectFlags = false ∧ validTopic pkt.willTopic = true := by
  have accepted := accepted_of_decode decoded
  constructor
  · intro always
    -- one lost connection is enough to see what becomes of the will
    have publishes : ∀ m, getWill h pkt = some m → ∃ episode, .Publish m ∈ episode.calls ∧
        PublishesWill pkt episode := by
      intro m will
      rcases @published_lose (request h pkt) accepted.version m will with
        ⟨episode, member, same, called⟩
      exact ⟨episode, called, always 0 ((lose (request h pkt)).map .op) episode member same⟩
    have valid : validTopic pkt.willTopic = true := by
      by_contra invalid
      rw [Bool.not_eq_true] at invalid
      rcases publishes _ (getWill_of_invalid flag invalid) with ⟨episode, called, kept⟩
      have blank : ([] : GoString) = pkt.willTopic := (kept _ called).1.1
      rw [← blank] at invalid
      exact absurd invalid (by decide)
    refine ⟨?_, valid⟩
    by_contra retained
    rw [Bool.not_eq_false] at retained
    rcases getWill_of_valid accepted flag valid with ⟨m, will, -⟩
    rcases publishes m will with ⟨episode, called, kept⟩
    exact retain_notMem_calls ((kept m called).2 retained)
  · rintro ⟨plain, valid⟩ start turns episode member same m called
    rcases publish_mem_calls.mp called with ⟨t, published⟩
    have mine := (Timeline.owned_run start turns).published episode member t m published
    rcases getWill_of_valid accepted flag valid with ⟨will, got, asked⟩
    rw [same, request, got, Option.some.injEq] at mine
    refine ⟨mine ▸ asked, fun retained => ?_⟩
    rw [plain] at retained
    cases retained

/-- A V3.1.1 client connects with a will, here the payload `h` with QoS 1 for the topic `a`. -/
def sampleWill (retain : UInt8) : Packet.Connect :=
  { keepAlive := 60
    connectFlags := 0x0E ||| retain
    clientID := [0x63]
    username := []
    password := []
    willTopic := [0x61]
    willMessage := [0x68] }

/-- The packet on the wire. -/
def sampleWillFrame (retain : UInt8) : Bytes :=
  [0x10, 19, 0, 4, 0x4D, 0x51, 0x54, 0x54, 4, 0x0E ||| retain, 0, 60, 0, 1, 0x63, 0, 1, 0x61, 0, 1,
    0x68]

theorem decode_sampleWillFrame :
    decode ProtocolV50 (sampleWillFrame 0) =
      .ok (.control (.new ProtocolV311 .CONNECT) (.connect (sampleWill 0)), 21) := rfl

theorem sampleWill_published :
    decode ProtocolV50 (sampleWillFrame 0) =
        .ok (.control (.new ProtocolV311 .CONNECT) (.connect (sampleWill 0)), 21) ∧
      ∀ (start : Int) (turns : List Timeline.Turn),
        ∀ episode ∈ (turns.foldl Timeline.turn (.new start)).episodes,
          episode.request = request (.new ProtocolV311 .CONNECT) (sampleWill 0) →
            PublishesWill (sampleWill 0) episode :=
  ⟨decode_sampleWillFrame, (publishesWill_iff decode_sampleWillFrame rfl).mpr ⟨rfl, by decide⟩⟩

/-- With the retain flag the will is published but not retained. -/
theorem sampleWill_not_retained :
    ∃ h n, decode ProtocolV50 (sampleWillFrame 0x20) =
        .ok (.control h (.connect (sampleWill 0x20)), n) ∧
      ∃ episode ∈ ((lose (request h (sampleWill 0x20))).map .op |>.foldl Timeline.turn
          (.new 0)).episodes,
        episode.request = request h (sampleWill 0x20) ∧
          ¬PublishesWill (sampleWill 0x20) episode := by
  refine ⟨{ Header.new ProtocolV50 .CONNECT with version := ProtocolV311 }, 21, rfl, ?_⟩
  refine ⟨_, List.mem_append.mpr (.inr (List.mem_singleton_self _)), rfl, ?_⟩
  intro published
  exact retain_notMem_calls ((published _ List.mem_cons_self).2 rfl)

end VolantMQ.Clients
