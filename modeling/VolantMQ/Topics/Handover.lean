import VolantMQ.Topics.Store
import VolantMQ.Topics.Workers

/-!
# Retained publications and new subscribers

A connection sends a retained message to both channels, first with `Retain` and then with
`Publish`, and each of the two goroutines handles it when it comes to it. A client that subscribes
in between has to get the message from one of them: from the retainer if it was the first, in the
answer to `Subscribe`, or else from the publisher. This file shows that it does if the publisher
has not been faster than the retainer: when `Subscribe` runs, the retainer has handled the message
or the publisher has not.
-/

namespace VolantMQ.Topics

open Lib Packet

namespace Provider

/-- A message with a payload is retained for its topic. -/
theorem retainedAt_retain_self (mT : Provider) {m : Publish} (payload : m.payload ≠ []) :
    (mT.retain (.publish m)).retainedAt (split m.topic) = some (.publish m) := by
  have some : ¬m.payload.length = 0 := by simpa using payload
  rw [retainedAt_retain, RetainObject.topic, if_pos rfl, RetainObject.kept, if_neg some]

/-- A retained message that has not expired stays until something is retained for its topic. -/
theorem held_step {mT : Provider} {m : Publish}
    (held : mT.retainedAt (split m.topic) = some (.publish m)) {op : Op}
    (alive : ∀ now, op.now? = some now → m.expired now = false)
    (elsewhere : ∀ obj, op = .retain obj → obj.topic ≠ m.topic) :
    (mT.step op).1.retainedAt (split m.topic) = some (.publish m) := by
  have aliveHere : ∀ now, op.now? = some now → ∀ obj,
      mT.retainedAt (split m.topic) = some obj → (obj.packetAt now).expired now = false := by
    intro now asks obj found
    rw [held, Option.some.injEq] at found
    subst found
    exact alive now asks
  rw [retainedAt_step aliveHere]
  cases op with
  | retain obj =>
      have other := split_injective.ne (elsewhere obj rfl)
      simp only [if_neg other.symm, held]
  | subscribe filter s p now => exact held
  | unSubscribe filter s => exact held
  | unSubscribeAll filter => exact held
  | retained filter now => exact held

end Provider

theorem retainSelects_of_matchLevels {levels path : List Level}
    (matched : matchLevels levels path = true) : Node.retainSelects levels path = true := by
  induction levels generalizing path with
  | nil => cases path <;> simp_all [matchLevels, Node.retainSelects]
  | cons level levels ih =>
      cases path with
      | nil => simp_all [matchLevels, Node.retainSelects]
      | cons key path =>
          by_cases multi : level = MWC
          · simp [Node.retainSelects, multi]
          · simp only [matchLevels, if_neg multi, Bool.and_eq_true] at matched
            simp [Node.retainSelects, matched.1, ih matched.2]

/-- What the live search finds for a filter, the retained search finds as well. -/
theorem retainMatches_of_pathMatches {levels path : List Level}
    (matched : pathMatches levels path = true) : Node.retainMatches levels path = true := by
  cases levels with
  | nil => simp [pathMatches] at matched
  | cons level levels =>
      cases path with
      | nil => simp [pathMatches] at matched
      | cons key path =>
          simp only [pathMatches] at matched
          by_cases system : isSystem key = true
          · rw [if_pos system, Bool.and_eq_true, beq_iff_eq] at matched
            have literal := isSystem_ne_wildcard system
            simp [Node.retainMatches, Node.retainSelects, matched.1, literal.1,
              retainSelects_of_matchLevels matched.2]
          · rw [if_neg system] at matched
            by_cases multi : level = MWC
            · simp only [matchLevels, if_pos multi, Bool.and_eq_true] at matched
              simp [Node.retainMatches, multi, matched.2, system]
            · rw [Node.retainMatches, if_neg multi]
              exact retainSelects_of_matchLevels matched

namespace Provider

variable {mT : Provider} {filter : GoString} {m : Publish} {now : Time}

/-- A retained search returns the message retained for a topic that its filter matches. -/
theorem mem_retainSearch (held : mT.retainedAt (split m.topic) = some (.publish m))
    (alive : m.expired now = false) (matched : filterMatches filter m.topic = true) :
    m ∈ (mT.retainSearch filter now).2 := by
  have selected := retainMatches_of_pathMatches matched
  change m ∈ (Node.retainSearch mT.root filter now).2
  rw [Node.retainSearch_snd, Node.livePackets, List.mem_filterMap]
  simp only [retainedAt, Trie.get] at held
  cases reached : (mT.root.find? (split m.topic)).map Trie.value with
  | none => simp [reached, blank, NodeData.new] at held
  | some data =>
      rw [reached, Option.getD_some] at held
      have live : data.liveRetained now = some m := by
        simp [NodeData.liveRetained, held, RetainObject.packetAt, alive]
      refine ⟨(split m.topic, data), ?_, live⟩
      cases topicLevels : split m.topic with
      | nil => exact absurd topicLevels (split_ne_nil m.topic)
      | cons key path =>
          rw [topicLevels] at selected reached
          exact (Node.mem_retainVisited mT.wf).mpr ⟨reached, selected⟩

/-- A new subscription with retain handling 0 is answered with the retained message. -/
theorem mem_answer (held : mT.retainedAt (split m.topic) = some (.publish m))
    (alive : m.expired now = false) (matched : filterMatches filter m.topic = true) (s : Hash)
    {p : SubscriptionParams} (handling : p.Ops.retainHandling = RetainHandlingRetain) :
    m ∈ (mT.subscribe filter s p now).2.retained := by
  have inserted := (retainedAt_subscriptionInsert mT filter s
    { p with Granted := p.Ops.qos } (split m.topic)).trans held
  simp only [subscribe, handling, true_or, if_true]
  exact mem_retainSearch inserted alive matched

/-- The publisher gives a message to the subscribers whose filters match. -/
theorem mem_deliveries {table : Table} (represents : mT.Represents table)
    (mode : mT.allowOverlapping = false) (free : WildcardFree m.topic)
    (matched : filterMatches filter m.topic = true) {s : Hash} {p : SubscriptionParams}
    (subscribed : table.lookup (filter, s) = some p)
    (receives : NodeData.mayReceive m.publishID s ⟨s, p⟩ = true) :
    (s, m) ∈ Workers.deliveries mT m := by
  rcases finds_of_matches represents mode free matched subscribed receives with ⟨entry, found, rfl⟩
  exact List.mem_map.mpr ⟨entry, found, rfl⟩

end Provider

/-- The operations that touch the subscription of a subscriber to a filter. -/
def Provider.Op.Touches (filter : GoString) (s : Hash) : Provider.Op → Prop
  | .subscribe other sub _ _ => other = filter ∧ sub = s
  | .unSubscribe other sub => other = filter ∧ sub = s
  | .unSubscribeAll other => other = filter
  | _ => False

theorem Table.lookup_step {table : Table} {filter : GoString} {s : Hash} {op : Provider.Op}
    (untouched : ¬op.Touches filter s) :
    (table.step op).1.lookup (filter, s) = table.lookup (filter, s) := by
  cases op with
  | subscribe other sub p now =>
      refine AList.lookup_insert_ne fun same => untouched ?_
      rw [Prod.mk.injEq] at same
      exact ⟨same.1.symm, same.2.symm⟩
  | unSubscribe other sub =>
      refine AList.lookup_erase_ne fun same => untouched ?_
      rw [Prod.mk.injEq] at same
      exact ⟨same.1.symm, same.2.symm⟩
  | unSubscribeAll other =>
      rw [Table.step, Table.lookup_eraseFilter, if_neg fun same => untouched same.symm]
  | retain obj => rfl
  | retained other now => rfl

/-- The provider without its threads: the trie, the messages that wait for each goroutine and what
subscribers have been given. -/
structure Queues where
  topics : Provider
  inbound : List Publish
  inRetained : List RetainObject
  given : List (Hash × Publish)

namespace Queues

open Workers in
/-- What can happen to the queues: a message is sent, an operation runs, or a goroutine handles
the first message of its queue. A step that is only part of this changes nothing. -/
inductive Step (q : Queues) : Act → Queues → Prop where
  | sent (obj : RetainObject) :
      Step q (.call (.retain obj)) { q with inRetained := q.inRetained ++ [obj] }
  | published (m : Publish) : Step q (.publish m) { q with inbound := q.inbound ++ [m] }
  | ran (op : Provider.Op) (direct : ∀ obj, op ≠ .retain obj) :
      Step q (.call op)
        { q with topics := (q.topics.step op).1, given := q.given ++ answer q.topics op }
  | refused (op : Provider.Op) (direct : ∀ obj, op ≠ .retain obj) : Step q (.call op) q
  | delivered (msg : Publish) (rest : List Publish) (first : q.inbound = msg :: rest) :
      Step q (.tick .publisher)
        { q with inbound := rest, given := q.given ++ deliveries q.topics msg }
  | retained (obj : RetainObject) (rest : List RetainObject) (first : q.inRetained = obj :: rest) :
      Step q (.tick .retainer)
        { q with inRetained := rest, topics := (q.topics.step (.retain obj)).1 }
  | idle (thread : Thread) : Step q (.tick thread) q

/-- The trie holds the subscriptions of some table and has one entry for each of them. -/
structure Sound (q : Queues) : Prop where
  mode : q.topics.allowOverlapping = false
  represents : ∃ table, q.topics.Represents table

variable {q r : Queues} {next : Workers.Act} {m : Publish} {filter : GoString} {s : Hash}
  {p : SubscriptionParams}

theorem Sound.step (sound : q.Sound) (op : Provider.Op) :
    (q.topics.step op).1.allowOverlapping = false ∧
      ∃ table, (q.topics.step op).1.Represents table := by
  rcases sound.represents with ⟨table, represents⟩
  exact ⟨(Provider.allowOverlapping_step _ op).trans sound.mode, _,
    (Provider.represents_step represents op).1⟩

theorem Step.sound (step : q.Step next r) (sound : q.Sound) : r.Sound := by
  cases step with
  | sent obj => exact ⟨sound.mode, sound.represents⟩
  | published m => exact ⟨sound.mode, sound.represents⟩
  | ran op direct => exact ⟨(sound.step op).1, (sound.step op).2⟩
  | refused op direct => exact sound
  | delivered msg rest first => exact ⟨sound.mode, sound.represents⟩
  | retained obj rest first => exact ⟨(sound.step (.retain obj)).1, (sound.step (.retain obj)).2⟩
  | idle thread => exact sound

/-- A subscription stays until somebody touches it. -/
theorem Sound.params_step (sound : q.Sound) {op : Provider.Op} (untouched : ¬op.Touches filter s) :
    (q.topics.step op).1.params filter s = q.topics.params filter s := by
  rcases sound.represents with ⟨table, represents⟩
  rw [(Provider.represents_step represents op).1, represents, Table.lookup_step untouched]

theorem Step.params (step : q.Step next r) (sound : q.Sound)
    (untouched : ∀ op, next = .call op → ¬op.Touches filter s) :
    r.topics.params filter s = q.topics.params filter s := by
  cases step with
  | ran op direct => exact sound.params_step (untouched op rfl)
  | retained obj rest first => exact sound.params_step (by simp [Provider.Op.Touches])
  | _ => rfl

/-- The publisher gives a subscriber the message when it comes to it. -/
theorem Step.live (step : q.Step next r) (sound : q.Sound) (free : WildcardFree m.topic)
    (matched : filterMatches filter m.topic = true)
    (subscribed : q.topics.params filter s = some p)
    (receives : NodeData.mayReceive m.publishID s ⟨s, p⟩ = true)
    (due : m ∈ q.inbound ∨ (s, m) ∈ q.given) : m ∈ r.inbound ∨ (s, m) ∈ r.given := by
  cases step with
  | sent obj => exact due
  | published msg => exact due.imp_left fun waits => List.mem_append_left _ waits
  | ran op direct => exact due.imp_right fun there => List.mem_append_left _ there
  | refused op direct => exact due
  | delivered msg rest first =>
      rcases due with waits | there
      · rw [first] at waits
        rcases List.mem_cons.mp waits with rfl | later
        · rcases sound.represents with ⟨table, represents⟩
          rw [represents] at subscribed
          right
          exact List.mem_append_right _
            (Provider.mem_deliveries represents sound.mode free matched subscribed receives)
        · exact .inl later
      · exact .inr (List.mem_append_left _ there)
  | retained obj rest first => exact due
  | idle thread => exact due

theorem Step.given (step : q.Step next r) {gift : Hash × Publish} (there : gift ∈ q.given) :
    gift ∈ r.given := by
  cases step with
  | ran op direct => exact List.mem_append_left _ there
  | delivered msg rest first => exact List.mem_append_left _ there
  | _ => exact there

/-- A message waits for the retainer or is retained, and no other message for its topic comes
after it. -/
def Keeps (m : Publish) (q : Queues) : Prop :=
  (∃ front back, q.inRetained = front ++ .publish m :: back ∧
      ∀ obj ∈ back, obj.topic ≠ m.topic) ∨
    (q.topics.retainedAt (split m.topic) = some (.publish m) ∧
      ∀ obj ∈ q.inRetained, obj.topic ≠ m.topic)

theorem Step.keeps (step : q.Step next r) (payload : m.payload ≠ [])
    (alive : ∀ op now, next = .call op → op.now? = some now → m.expired now = false)
    (elsewhere : ∀ obj, next = .call (.retain obj) → obj.topic ≠ m.topic) (keeps : q.Keeps m) :
    r.Keeps m := by
  cases step with
  | sent obj =>
      have other := elsewhere obj rfl
      rcases keeps with ⟨front, back, queue, later⟩ | ⟨held, later⟩
      · refine .inl ⟨front, back ++ [obj], by simp [queue], ?_⟩
        simpa [or_imp, forall_and] using ⟨later, other⟩
      · refine .inr ⟨held, ?_⟩
        simpa [or_imp, forall_and] using ⟨later, other⟩
  | published msg => exact keeps
  | ran op direct =>
      refine keeps.imp_right fun kept => ⟨?_, kept.2⟩
      exact Provider.held_step kept.1 (fun now => alive op now rfl)
        fun obj same => absurd same (direct obj)
  | refused op direct => exact keeps
  | delivered msg rest first => exact keeps
  | retained obj rest first =>
      rcases keeps with ⟨front, back, queue, later⟩ | ⟨held, later⟩
      · rw [first] at queue
        cases front with
        | nil =>
            rw [List.nil_append, List.cons.injEq] at queue
            rcases queue with ⟨rfl, rfl⟩
            exact .inr ⟨Provider.retainedAt_retain_self q.topics payload, later⟩
        | cons head front =>
            rw [List.cons_append, List.cons.injEq] at queue
            exact .inl ⟨front, back, queue.2, later⟩
      · rw [first] at later
        refine .inr ⟨?_, fun other member => later other (List.mem_cons_of_mem _ member)⟩
        have elsewhere := split_injective.ne (later obj List.mem_cons_self)
        have kept := Provider.retainedAt_retain q.topics obj (split m.topic)
        rw [if_neg elsewhere.symm] at kept
        exact kept.trans held
  | idle thread => exact keeps

end Queues

namespace Workers

variable {w : Workers}

/-- The queues of a provider. -/
def queues (w : Workers) : Queues := ⟨w.topics, w.inbound.pending, w.inRetained.pending, w.given⟩

theorem publisher_queues (w : Workers) : w.queues.Step (.tick .publisher) w.publisher.queues := by
  rcases Drain.step_cases w.smu.isNone w.inbound with ⟨move, same, -⟩ | ⟨move, -, same, -⟩ |
    ⟨msg, move, first, -⟩
  · have unchanged : w.publisher.queues = w.queues := by
      simp [publisher, queues, move, same]
    exact unchanged ▸ .idle _
  · have unchanged : w.publisher.queues = w.queues := by
      simp [publisher, queues, move, same]
    exact unchanged ▸ .idle _
  · have handled : w.publisher.queues = { w.queues with
        inbound := w.publisher.inbound.pending
        given := w.given ++ deliveries w.topics msg } := by
      simp [publisher, queues, move]
    exact handled ▸ .delivered msg _ first

theorem retainer_queues (w : Workers) : w.queues.Step (.tick .retainer) w.retainer.queues := by
  rcases Drain.step_cases w.smu.isNone w.inRetained with ⟨move, same, -⟩ | ⟨move, -, same, -⟩ |
    ⟨obj, move, first, -⟩
  · have unchanged : w.retainer.queues = w.queues := by
      simp [retainer, queues, move, same]
    exact unchanged ▸ .idle _
  · have unchanged : w.retainer.queues = w.queues := by
      simp [retainer, queues, move, same]
    exact unchanged ▸ .idle _
  · have handled : w.retainer.queues = { w.queues with
        inRetained := w.retainer.inRetained.pending
        topics := (w.topics.step (.retain obj)).1 } := by
      simp [retainer, queues, move, Provider.step]
    exact handled ▸ .retained obj _ first

theorem call_queues (usable : w.inRetained.closed = false) (op : Provider.Op) :
    w.queues.Step (.call op) (w.call op).queues := by
  rcases call_cases w op with ⟨obj, rfl, same⟩ | ⟨direct, -, same⟩ | ⟨direct, -, same⟩
  · rw [same]
    have sent := Drain.pending_send usable obj
    simp only [queues, sent]
    exact .sent obj
  · rw [same]
    exact .ran op direct
  · rw [same]
    exact .refused op direct

/-- A provider on which `Close` has not been called. -/
structure Up (w : Workers) : Prop where
  coherent : w.Coherent
  started : w.closer = .started
  sound : w.queues.Sound

theorem up_new : new.Up := ⟨coherent_new, rfl, rfl, ∅, Provider.represents_empty false⟩

/-- As long as `Close` has not been called, the goroutines with their mutex do nothing but handle
the messages of their queues in order. -/
theorem Up.queues (up : w.Up) {next : Act} (running : next ≠ .tick .closer) :
    w.queues.Step next (w.act next).queues := by
  have usable := up.coherent.usable up.started
  cases next with
  | call op => exact call_queues usable.2 op
  | publish m =>
      have sent := Drain.pending_send usable.1 m
      simp only [act, Workers.queues, sent]
      exact .published m
  | tick thread =>
      cases thread with
      | publisher => exact publisher_queues w
      | retainer => exact retainer_queues w
      | closer => exact absurd rfl running

theorem closer_act {next : Act} (running : next ≠ .tick .closer) :
    (w.act next).closer = w.closer := by
  cases next with
  | call op =>
      change (w.call op).closer = w.closer
      rcases call_cases w op with ⟨obj, -, same⟩ | ⟨-, -, same⟩ | ⟨-, -, same⟩
      · rw [same]
      · rw [same]
      · rw [same]
  | publish m => rfl
  | tick thread =>
      cases thread with
      | publisher => rfl
      | retainer => rfl
      | closer => exact absurd rfl running

theorem Up.act (up : w.Up) {next : Act} (running : next ≠ .tick .closer) : (w.act next).Up :=
  ⟨up.coherent.act_step next, (closer_act running).trans up.started,
    (up.queues running).sound up.sound⟩

variable {m : Publish} {filter : GoString} {s : Hash} {p : SubscriptionParams}

section Runs

variable {acts : List Act}

theorem Up.run (up : w.Up) (running : .tick .closer ∉ acts) : (w.run acts).Up :=
  invariant_of_mem Up (fun _ member _ before => before.act fun same => running (same ▸ member)) up

/-- What has been given stays given. -/
theorem Up.given_run (up : w.Up) (running : .tick .closer ∉ acts) {gift : Hash × Publish}
    (there : gift ∈ w.given) : gift ∈ (w.run acts).given := by
  have both : (w.run acts).Up ∧ gift ∈ (w.run acts).given := by
    refine invariant_of_mem (fun v : Workers => v.Up ∧ gift ∈ v.given) ?_ ⟨up, there⟩
    rintro next member v ⟨here, got⟩
    have runs : next ≠ .tick .closer := fun same => running (same ▸ member)
    exact ⟨here.act runs, (here.queues runs).given got⟩
  exact both.2

/-- A message that waits for the publisher, or is sent to it, reaches a subscriber whose
subscription stands. -/
theorem Up.live_run (up : w.Up) (running : .tick .closer ∉ acts) (free : WildcardFree m.topic)
    (matched : filterMatches filter m.topic = true)
    (receives : NodeData.mayReceive m.publishID s ⟨s, p⟩ = true)
    (untouched : ∀ op, .call op ∈ acts → ¬op.Touches filter s)
    (subscribed : w.topics.params filter s = some p)
    (due : (m ∈ w.inbound.pending ∨ (s, m) ∈ w.given) ∨ .publish m ∈ acts) :
    m ∈ (w.run acts).inbound.pending ∨ (s, m) ∈ (w.run acts).given := by
  induction acts generalizing w with
  | nil => exact due.resolve_right List.not_mem_nil
  | cons next acts ih =>
      have runs : next ≠ .tick .closer := fun same => running (same ▸ List.mem_cons_self)
      have step := up.queues runs
      have subscribedNext := (step.params up.sound fun op same =>
        untouched op (same ▸ List.mem_cons_self)).trans subscribed
      refine ih (up.act runs) (fun member => running (List.mem_cons_of_mem _ member))
        (fun op member => untouched op (List.mem_cons_of_mem _ member)) subscribedNext ?_
      rcases due with here | sent
      · exact .inl (step.live up.sound free matched subscribed receives here)
      · rcases List.mem_cons.mp sent with rfl | later
        · left; left
          change m ∈ (w.inbound.send m).pending
          rw [Drain.pending_send (up.coherent.usable up.started).1]
          exact List.mem_append_right _ List.mem_cons_self
        · exact .inr later

/-- A message that was just sent is the last one for its topic. -/
theorem Up.keeps_sent (up : w.Up) (m : Publish) :
    (w.act (.call (.retain (.publish m)))).queues.Keeps m := by
  refine .inl ⟨w.inRetained.pending, [], ?_, by simp⟩
  exact Drain.pending_send (up.coherent.usable up.started).2 _

/-- A message that waits for the retainer goes on waiting or is retained. -/
theorem Up.keeps_run (up : w.Up) (running : .tick .closer ∉ acts) (payload : m.payload ≠ [])
    (alive : ∀ op now, .call op ∈ acts → op.now? = some now → m.expired now = false)
    (elsewhere : ∀ obj, .call (.retain obj) ∈ acts → obj.topic ≠ m.topic)
    (keeps : w.queues.Keeps m) : (w.run acts).queues.Keeps m := by
  have both : (w.run acts).Up ∧ (w.run acts).queues.Keeps m := by
    refine invariant_of_mem (fun v : Workers => v.Up ∧ v.queues.Keeps m) ?_ ⟨up, keeps⟩
    rintro next member v ⟨here, kept⟩
    have runs : next ≠ .tick .closer := fun same => running (same ▸ member)
    refine ⟨here.act runs, (here.queues runs).keeps payload ?_ ?_ kept⟩
    · exact fun op now same => alive op now (same ▸ member)
    · exact fun obj same => elsewhere obj (same ▸ member)
  exact both.2

end Runs

/-- A run in which a retained message is sent to both channels and a new subscriber subscribes
to a filter that matches it. The run is cut in two ways: around the calls of `Retain` and `Publish`
with the message, and around the call of `Subscribe`. `Close` is not called, nothing is retained
for the topic after the message, the message does not expire, nobody touches the subscription, and
in the end both channels are drained. -/
structure Handover (m : Publish) (filter : GoString) (s : Hash) (p : SubscriptionParams)
    (now : Time) where
  earlier : List Act
  between : List Act
  later : List Act
  before : List Act
  after : List Act
  same : earlier ++ .call (.retain (.publish m)) :: (between ++ .publish m :: later) =
    before ++ .call (.subscribe filter s p now) :: after
  running : .tick .closer ∉ before ++ .call (.subscribe filter s p now) :: after
  payload : m.payload ≠ []
  free : WildcardFree m.topic
  latest : ∀ obj, .call (.retain obj) ∈ between ++ .publish m :: later → obj.topic ≠ m.topic
  alive : ∀ op instant, .call op ∈ before ++ .call (.subscribe filter s p now) :: after →
    op.now? = some instant → m.expired instant = false
  fresh : ∀ other, (new.run before).topics.params other s = none
  granted : (new.run before).smu = none
  handling : p.Ops.retainHandling = RetainHandlingRetain
  matched : filterMatches filter m.topic = true
  untouched : ∀ op, .call op ∈ after → ¬op.Touches filter s
  drained : (new.run (before ++ .call (.subscribe filter s p now) :: after)).inbound.pending = [] ∧
    (new.run (before ++ .call (.subscribe filter s p now) :: after)).inRetained.pending = []

namespace Handover

variable {now : Time} (h : Handover m filter s p now)

/-- The whole run. -/
def acts : List Act := h.before ++ .call (.subscribe filter s p now) :: h.after

/-- When `Subscribe` runs, `Retain` has been called and the retainer has handled the message. -/
def RetainerDone : Prop :=
  h.earlier.length < h.before.length ∧
    .publish m ∉ (new.run h.before).inRetained.pending

/-- When `Subscribe` runs, `Publish` has not been called yet or the publisher has not yet handled
the message. -/
def PublisherPending : Prop :=
  h.before.length ≤ h.earlier.length + 1 + h.between.length ∨
    m ∈ (new.run h.before).inbound.pending

theorem up_before : (new.run h.before).Up :=
  up_new.run fun member => h.running (List.mem_append_left _ member)

/-- The provider after `Subscribe`. -/
def subscribed : Workers := (new.run h.before).act (.call (.subscribe filter s p now))

theorem up_subscribed : h.subscribed.Up := h.up_before.act (by simp)

theorem run_acts : new.run h.acts = h.subscribed.run h.after := by
  simp [run, acts, subscribed, List.foldl_append]

theorem subscribed_eq : h.subscribed = { new.run h.before with
    topics := ((new.run h.before).topics.subscribe filter s p now).1
    given := (new.run h.before).given ++
      ((new.run h.before).topics.subscribe filter s p now).2.retained.map fun m => (s, m) } := by
  have ready : (new.run h.before).ready = true := by
    simp [Workers.ready, h.granted, h.up_before.started]
  simp [subscribed, act, call, ready, answer, Provider.step]

/-- What the retainer has handled before `Subscribe` is retained when `Subscribe` runs. -/
theorem retained_of_done (done : h.RetainerDone) :
    (new.run h.before).topics.retainedAt (split m.topic) = some (.publish m) := by
  rcases List.append_eq_append_iff.mp h.same with ⟨sent, whole, rest⟩ | ⟨missing, whole, -⟩
  · cases sent with
    | nil => simp [whole, RetainerDone] at done
    | cons call sent =>
        rw [List.cons_append, List.cons.injEq] at rest
        rcases rest with ⟨rfl, rest⟩
        have inBefore : ∀ {next}, next ∈ sent → next ∈ h.before := by
          intro next member
          rw [whole]
          exact List.mem_append_right _ (List.mem_cons_of_mem _ member)
        have upEarlier : (new.run h.earlier).Up := up_new.run fun member =>
          h.running (List.mem_append_left _ (whole ▸ List.mem_append_left _ member))
        have upSent : ((new.run h.earlier).act (.call (.retain (.publish m)))).Up :=
          upEarlier.act (by simp)
        have reached : new.run h.before =
            ((new.run h.earlier).act (.call (.retain (.publish m)))).run sent := by
          rw [whole]
          simp [run, List.foldl_append]
        have kept : (new.run h.before).queues.Keeps m := by
          rw [reached]
          exact upSent.keeps_run
            (fun member => h.running (List.mem_append_left _ (inBefore member))) h.payload
            (fun op instant member => h.alive op instant (List.mem_append_left _ (inBefore member)))
            (fun obj member => h.latest obj (rest ▸ List.mem_append_left _ member))
            (upEarlier.keeps_sent m)
        rcases kept with ⟨front, back, queue, -⟩ | ⟨held, -⟩
        · have waits : .publish m ∈ (new.run h.before).queues.inRetained := by simp [queue]
          exact absurd waits done.2
        · exact held
  · simp [whole, RetainerDone] at done

theorem publish_mem_after (early : h.before.length ≤ h.earlier.length + 1 + h.between.length) :
    .publish m ∈ h.after := by
  have same : (h.earlier ++ .call (.retain (.publish m)) :: h.between) ++ .publish m :: h.later =
      h.before ++ .call (.subscribe filter s p now) :: h.after := by
    simpa using h.same
  rcases List.append_eq_append_iff.mp same with ⟨sent, whole, rest⟩ | ⟨missing, whole, rest⟩
  · have lengths := congrArg List.length whole
    cases sent with
    | nil => simp at rest
    | cons next sent =>
        simp only [List.length_append, List.length_cons] at lengths
        omega
  · cases missing with
    | nil => simp at rest
    | cons next missing =>
        rw [List.cons_append, List.cons.injEq] at rest
        rw [rest.2]
        exact List.mem_append_right _ List.mem_cons_self

theorem params_subscribed : h.subscribed.topics.params filter s =
    some { p with Granted := p.Ops.qos } := by
  rcases h.up_before.sound.represents with ⟨table, represents⟩
  have after := (Provider.represents_step represents (.subscribe filter s p now)).1
  rw [h.subscribed_eq]
  exact (after filter s).trans (AList.lookup_insert _)

/-- A new subscriber is given the retained message if the retainer has handled it when `Subscribe`
runs, or if the publisher has not and does not have to leave out the sender. -/
theorem subscriber_given (fine : h.RetainerDone ∨
      h.PublisherPending ∧ NodeData.mayReceive m.publishID s ⟨s, p⟩ = true) :
    (s, m) ∈ (new.run h.acts).given := by
  have running : .tick .closer ∉ h.after := fun member =>
    h.running (List.mem_append_right _ (List.mem_cons_of_mem _ member))
  rw [h.run_acts]
  rcases fine with done | ⟨pending, receives⟩
  · have alive : m.expired now = false :=
      h.alive (.subscribe filter s p now) now (List.mem_append_right _ List.mem_cons_self) rfl
    have answered := Provider.mem_answer (h.retained_of_done done) alive h.matched s h.handling
    apply h.up_subscribed.given_run running
    rw [h.subscribed_eq]
    exact List.mem_append_right _ (List.mem_map_of_mem answered)
  · have due : (m ∈ h.subscribed.inbound.pending ∨ (s, m) ∈ h.subscribed.given) ∨
        .publish m ∈ h.after := by
      rcases pending with early | waits
      · exact .inr (h.publish_mem_after early)
      · rw [h.subscribed_eq]
        exact .inl (.inl waits)
    have granted : NodeData.mayReceive m.publishID s ⟨s, { p with Granted := p.Ops.qos }⟩ = true :=
      receives
    have live := h.up_subscribed.live_run running h.free h.matched granted h.untouched
      h.params_subscribed due
    rw [← h.run_acts] at live ⊢
    have empty : (new.run h.acts).inbound.pending = [] := h.drained.1
    rw [empty] at live
    exact live.resolve_left List.not_mem_nil

/-- Three steps in which a goroutine handles one message. -/
def round (thread : Thread) : List Act := [.tick thread, .tick thread, .tick thread]

/-- A retained message for `a/b`. -/
def message : Publish := Provider.retainedSample (ascii "a/b")

/-- The calls of `publishToTopic`. -/
def sends : List Act := [.call (.retain (.publish message)), .publish message]

/-- The call of a new subscriber with QoS 1 and retain handling 0. -/
def subscribes : Act := .call (.subscribe (ascii "a/+") 5 ⟨0, 0x01, 0⟩ 0)

/-- The subscriber comes after the retainer and before the publisher. -/
def retainerFirst : Handover message (ascii "a/+") 5 ⟨0, 0x01, 0⟩ 0 where
  earlier := []
  between := []
  later := round .retainer ++ subscribes :: round .publisher
  before := sends ++ round .retainer
  after := round .publisher
  same := rfl
  running := by simp [sends, round]
  payload := by decide
  free := by decide
  latest := by simp [round, subscribes]
  alive := fun _ _ _ _ => rfl
  fresh := Provider.fresh_of_retain (.publish message) 5
  granted := rfl
  handling := by decide
  matched := by decide
  untouched := by simp [round]
  drained := ⟨rfl, rfl⟩

/-- The subscriber is given the message that the retainer has handled. -/
theorem retainerFirst_given : (5, message) ∈ (new.run retainerFirst.acts).given :=
  retainerFirst.subscriber_given (.inl ⟨by decide, List.not_mem_nil⟩)

/-- The subscriber comes after the publisher and before the retainer. -/
def publisherFirst : Handover message (ascii "a/+") 5 ⟨0, 0x01, 0⟩ 0 where
  earlier := []
  between := []
  later := round .publisher ++ subscribes :: round .retainer
  before := sends ++ round .publisher
  after := round .retainer
  same := rfl
  running := by simp [sends, round]
  payload := by decide
  free := by decide
  latest := by simp [round, subscribes]
  alive := fun _ _ _ _ => rfl
  fresh := fun other => Provider.represents_empty false other 5
  granted := rfl
  handling := by decide
  matched := by decide
  untouched := by simp [round]
  drained := ⟨rfl, rfl⟩

/-- The subscriber is never given the message. -/
theorem publisherFirst_missed : (5, message) ∉ (new.run publisherFirst.acts).given := by
  have nothing : (new.run publisherFirst.acts).given = [] := rfl
  rw [nothing]
  exact List.not_mem_nil

end Handover

end Workers

end VolantMQ.Topics
