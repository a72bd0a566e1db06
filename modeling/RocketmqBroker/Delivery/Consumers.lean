import RocketmqBroker.Delivery.Outstanding

/-!
Consumers that were cancelled. Basic.Cancel forgets a consumer in the indices of its
connection and not in its queue, which is where a delivery round looks for consumers.
So the consumer stays silent if its queue had lost it before, and no other request
brings it back.
-/
namespace RocketmqBroker
open Run.Program

section
variable {who : Consumer → Bool} {heard : UInt64 × UInt16 → Bool}

def QueueView.lists (q : QueueView) (who : Consumer → Bool) (heard : UInt64 × UInt16 → Bool) :
    Bool :=
  q.activeConsumers.any who ||
    q.consumerTags.entries.any (fun e => who ⟨e.1, e.2.1, e.2.2.1, e.2.2.2⟩) ||
    q.listeners.any heard

def BrokerState.lists (s : BrokerState) (who : Consumer → Bool)
    (heard : UInt64 × UInt16 → Bool) : Bool :=
  s.queues.entries.any fun e => e.2.view.lists who heard

def Unlisted (queues : String → QueueView) (who : Consumer → Bool)
    (heard : UInt64 × UInt16 → Bool) : Prop := ∀ name, (queues name).lists who heard = false

theorem QueueView.lists_eq_false {q : QueueView} : q.lists who heard = false ↔
    (∀ c ∈ q.activeConsumers, who c = false) ∧
    (∀ tag c, q.consumerTags.get? tag = some c → who ⟨tag, c.1, c.2.1, c.2.2⟩ = false) ∧
    ∀ l ∈ q.listeners, heard l = false := by
  have tags : q.consumerTags.entries.any (fun e => who ⟨e.1, e.2.1, e.2.2.1, e.2.2.2⟩) = false ↔
      ∀ tag c, q.consumerTags.get? tag = some c → who ⟨tag, c.1, c.2.1, c.2.2⟩ = false := by
    rw [List.any_eq_false]
    constructor
    · intro unlisted tag c found
      exact Bool.eq_false_iff.mpr (unlisted ⟨tag, c⟩ (FinMap.get?_eq_some_iff_mem.mp found))
    · intro unlisted e member
      exact Bool.eq_false_iff.mp (unlisted e.1 e.2 (FinMap.get?_eq_some_iff_mem.mpr member))
  unfold lists
  rw [Bool.or_eq_false_iff, Bool.or_eq_false_iff, tags, List.any_eq_false, List.any_eq_false,
    and_assoc]
  simp only [Bool.not_eq_true]

theorem unlisted_iff (s : BrokerState) : Unlisted s.view.queue who heard ↔
    s.lists who heard = false := by
  unfold Unlisted BrokerState.lists
  rw [List.any_eq_false]
  constructor
  · intro unlisted e member
    have found : s.queues.get? e.1 = some e.2 := FinMap.get?_eq_some_iff_mem.mpr member
    have here : (s.queueView e.1).lists who heard = false := unlisted e.1
    rw [BrokerState.queueView, found] at here
    exact Bool.eq_false_iff.mp here
  · intro unlisted name
    change (s.queueView name).lists who heard = false
    unfold BrokerState.queueView
    cases found : s.queues.get? name with
    | none => rfl
    | some q =>
      exact Bool.eq_false_iff.mpr (unlisted ⟨name, q⟩ (FinMap.get?_eq_some_iff_mem.mp found))

theorem FewerConsumers.unlisted {after before : String → QueueView}
    (fewer : FewerConsumers after before) (unlisted : Unlisted before who heard) :
    Unlisted after who heard := by
  intro name
  obtain ⟨active, tags, listeners⟩ := QueueView.lists_eq_false.mp (unlisted name)
  refine QueueView.lists_eq_false.mpr
    ⟨fun c listed => ?_, fun tag c found => ?_, fun l listed => ?_⟩
  · exact active c ((fewer.active name).subset listed)
  · exact tags tag c (fewer.tags name tag c found)
  · exact listeners l ((fewer.listeners name).subset listed)

/-- The snapshot is made from the tags again, so it has no consumers but theirs. -/
theorem unlisted_consume {v : DeliveryView} (unlisted : Unlisted v.queue who heard)
    (queue : String) {tag : String} {connId : UInt64} {channel : UInt16} {noAck : Bool}
    (other : who ⟨tag, connId, channel, noAck⟩ = false)
    (unheard : heard (connId, channel) = false) :
    Unlisted (v.consume queue tag connId channel noAck).queue who heard := by
  intro name
  simp only [DeliveryView.consume, Function.update_apply]
  split
  case isFalse => exact unlisted name
  obtain ⟨-, old, listeners⟩ := QueueView.lists_eq_false.mp (unlisted queue)
  have tags (t : String) (c : UInt64 × UInt16 × Bool)
      (found : ((v.queue queue).consumerTags.insert tag (connId, channel, noAck)).get? t = some c) :
      who ⟨t, c.1, c.2.1, c.2.2⟩ = false := by
    rw [FinMap.get?_insert] at found
    split at found
    · rename_i same
      obtain rfl := Option.some.inj found
      rwa [same]
    · exact old t c found
  refine QueueView.lists_eq_false.mpr ⟨fun c listed => ?_, tags, fun l listed => ?_⟩
  · obtain ⟨e, member, rfl⟩ := List.mem_map.mp listed
    exact tags e.1 e.2 (FinMap.get?_eq_some_iff_mem.mpr member)
  · dsimp only at listed
    split at listed
    · exact listeners l listed
    · cases List.mem_append.mp listed with
      | inl member => exact listeners l member
      | inr new => rwa [List.mem_singleton.mp new]

end

section
variable {env : Env} {allowed : BrokerState → Effect → Prop} {s : BrokerState}

theorem Serves.unlisted {op : Op} {frames : List Frame} {w : DeliveryView} {who : Consumer → Bool}
    {heard : UInt64 × UInt16 → Bool} (serves : Serves env allowed s op frames w)
    (unlisted : Unlisted s.view.queue who heard)
    (other : ∀ connId channel args, op = .basicConsume connId channel args →
      (∀ code text classId methodId, Frame.channelClose code text classId methodId ∉ frames) →
      who ⟨s.consumerTagFor connId args, connId, channel, args.noAck⟩ = false ∧
        heard (connId, channel) = false) :
    Unlisted w.queue who heard := by
  by_cases consumes : ∃ connId channel args, op = .basicConsume connId channel args
  · obtain ⟨connId, channel, args, rfl⟩ := consumes
    cases serves with
    | quiet frames quiet => cases quiet
    | dropped frames drops => cases drops
    | settled connId channel tag settles => cases settles
    | consumed connId channel args subscribe =>
      cases subscribe with
      | failed => exact unlisted
      | added =>
        have accepted (code : Nat) (text : String) (classId methodId : Nat) :
            Frame.channelClose code text classId methodId ∉ if args.noWait then []
              else [Frame.basicConsumeOk (s.consumerTagFor connId args)] := by
          intro member
          split at member
          · cases member
          · cases List.mem_singleton.mp member
        obtain ⟨apart, unheard⟩ := other connId channel args rfl accepted
        exact unlisted_consume unlisted args.queue apart unheard
  · refine (serves.fewerConsumers fun connId channel args same => ?_).unlisted unlisted
    exact consumes ⟨connId, channel, args, same⟩

theorem listed_of_delivered {queue : String} {answers : List Bool} {now : Instant}
    {connId : UInt64} {channel : UInt16} {tag : String} {m : Message}
    (sent : Frame.basicDeliver connId channel tag m ∈
      answer env s (.deliverRound queue answers now)) :
    ∃ c ∈ (s.view.queue queue).activeConsumers,
      c.tag = tag ∧ c.connId = connId ∧ c.channel = channel := by
  have serves := serves_any env s (.deliverRound queue answers now)
  generalize answer env s (.deliverRound queue answers now) = frames at serves sent
  generalize (served env s (.deliverRound queue answers now)).view = w at serves
  cases serves with
  | quiet frames quiet => cases quiet
  | dropped frames drops => cases drops
  | settled connId channel tag settles => cases settles
  | delivered queue answers now turns =>
    refine turns.all (fun _ => True) (fun f => f = .basicDeliver connId channel tag m →
      ∃ c ∈ (s.view.queue queue).activeConsumers,
        c.tag = tag ∧ c.connId = connId ∧ c.channel = channel)
      (fun _ _ _ _ _ => trivial) (fun v fs w turn _ f member same => ?_) trivial _ sent rfl
    have own (c : Consumer) (m' : Message) (listed : c ∈ (s.view.queue queue).activeConsumers)
        (member : f ∈ [Frame.basicDeliver c.connId c.channel c.tag m']) :
        ∃ c ∈ (s.view.queue queue).activeConsumers,
          c.tag = tag ∧ c.connId = connId ∧ c.channel = channel := by
      rw [List.mem_singleton.mp member] at same
      cases same
      exact ⟨c, listed, rfl, rfl, rfl⟩
    cases turn with
    | idle => cases member
    | unacked _ c m' listed => exact own c m' listed member
    | held t c m' listed => exact own c m' listed member

end

def Frame.consumer? : Frame → Option (UInt64 × String)
  | basicDeliver connId _ tag _ => some (connId, tag)
  | _ => none

/-- A broker, and the consumers that were cancelled and not created again since. -/
structure Cancelling where
  broker : BrokerState
  cancelled : List (UInt64 × String)

namespace Cancelling

def step (env : Env) (o : Cancelling) (op : Op) : Cancelling where
  broker := served env o.broker op
  cancelled :=
    match op with
    | .basicCancel connId tag _ => (connId, tag) :: o.cancelled
    | .basicConsume connId _ args =>
      o.cancelled.filter (· ≠ (connId, o.broker.consumerTagFor connId args))
    | _ => o.cancelled

def start (env : Env) (auth : AuthBackend) (cluster : Option ClusterCoordinator) : Cancelling :=
  ⟨install env auth cluster, []⟩

def after (env : Env) (auth : AuthBackend) (cluster : Option ClusterCoordinator)
    (ops : List Op) : Cancelling := Run.run (step env) (start env auth cluster) ops

def Spared (env : Env) (o : Cancelling) (queue : String) (answers : List Bool)
    (now : Instant) : Prop :=
  ∀ d ∈ (answer env o.broker (.deliverRound queue answers now)).filterMap Frame.consumer?,
    d ∉ o.cancelled

end Cancelling

def BrokerState.keepsConsumer (s : BrokerState) (connId : UInt64) (tag : String) : Bool :=
  s.lists (fun c => c.connId == connId && c.tag == tag) fun _ => false

/-- A consumer is cancelled when its queue is gone or has forgotten it already. -/
def Cancelling.Late (o : Cancelling) : Op → Prop
  | .basicCancel connId tag _ => o.broker.keepsConsumer connId tag = false
  | _ => True

instance (o : Cancelling) (op : Op) : Decidable (o.Late op) := by
  unfold Cancelling.Late
  split <;> infer_instance

section
variable {env : Env} {o : Cancelling}

def Cancelling.Gone (o : Cancelling) : Prop :=
  ∀ d ∈ o.cancelled,
    Unlisted o.broker.view.queue (fun c => c.connId == d.1 && c.tag == d.2) fun _ => false

theorem gone_step {op : Op} (late : o.Late op) (gone : o.Gone) : (o.step env op).Gone := by
  have kept (d : UInt64 × String) (member : d ∈ o.cancelled)
      (other : ∀ connId channel args, op = .basicConsume connId channel args →
        (connId, o.broker.consumerTagFor connId args) ≠ d) :
      Unlisted (served env o.broker op).view.queue (fun c => c.connId == d.1 && c.tag == d.2)
        fun _ => false := by
    refine (serves_any env o.broker op).unlisted (gone d member)
      fun connId channel args same _ => ?_
    refine ⟨Bool.eq_false_iff.mpr fun created => ?_, rfl⟩
    rw [Bool.and_eq_true, beq_iff_eq, beq_iff_eq] at created
    exact other connId channel args same (Prod.ext created.1 created.2)
  intro d member
  change d ∈ (o.step env op).cancelled at member
  unfold Cancelling.step at member
  dsimp only at member
  split at member
  · rename_i connId tag noWait
    cases List.mem_cons.mp member with
    | inl new =>
      subst new
      change Unlisted (served env o.broker (.basicCancel connId tag noWait)).view.queue _ _
      rw [view_served_quiet rfl]
      exact (unlisted_iff o.broker).mpr late
    | inr old => exact kept d old fun _ _ _ same => by cases same
  · rename_i connId channel args
    obtain ⟨old, apart⟩ := List.mem_filter.mp member
    refine kept d old fun connId' channel' args' same created => ?_
    cases same
    exact of_decide_eq_true apart created.symm
  · rename_i op _ other
    exact kept d member fun connId channel args same => absurd same (other connId channel args)

theorem Cancelling.Gone.spared (gone : o.Gone) (queue : String) (answers : List Bool)
    (now : Instant) : o.Spared env queue answers now := by
  intro d sent cancelled
  obtain ⟨f, member, consumer⟩ := List.mem_filterMap.mp sent
  cases f with
  | basicDeliver connId channel tag m =>
    obtain rfl := Option.some.inj consumer
    obtain ⟨c, listed, rfl, rfl, -⟩ := listed_of_delivered member
    have unlisted := (QueueView.lists_eq_false.mp (gone _ cancelled queue)).1 c listed
    simp at unlisted
  | _ => cases consumer

end

/-- In a run that cancels consumers only when their queues have lost them, every round
    spares the cancelled ones. -/
theorem cancelled_spared (env : Env) (auth : AuthBackend) (cluster : Option ClusterCoordinator)
    (ops : List Op)
    (late : Run.Along (Cancelling.step env) Cancelling.Late (Cancelling.start env auth cluster) ops)
    (before after : List Op) (queue : String) (answers : List Bool) (now : Instant)
    (split : ops = before ++ .deliverRound queue answers now :: after) :
    (Cancelling.after env auth cluster before).Spared env queue answers now := by
  rw [split, Run.along_append] at late
  have gone := Run.invariant (fun _ => Cancelling.Gone) (fun d member => by cases member)
    (fun _ o op late gone => gone_step late gone) late.1
  exact gone.spared queue answers now

def oneConsumer : List Op :=
  session "q" ++ [.basicConsume 1 1 ⟨"q", "t", false, false, false, []⟩]

/-- The queue is deleted and made again before the consumer is cancelled. Another
    consumer gets the message. -/
def cancelledLate : List Op := oneConsumer ++
  [.queueDelete 1 "q" false false false,
    .queueDeclare 1 ⟨"q", false, true, false, false, false, []⟩ 0, .basicCancel 1 "t" false,
    .basicConsume 1 1 ⟨"q", "u", false, false, false, []⟩, publishTo "q" false [1]]

theorem cancelled_spared_late : (Cancelling.after (plainEnv 64 1) guestOnly none
    cancelledLate).Spared (plainEnv 64 1) "q" [true] 0 :=
  cancelled_spared (plainEnv 64 1) guestOnly none (cancelledLate ++ [.deliverRound "q" [true] 0])
    (by decide +kernel) cancelledLate [] "q" [true] 0 rfl

/-- The consumer is cancelled while the queue has it. -/
def cancelledEarly : List Op := oneConsumer ++ [.basicCancel 1 "t" false, publishTo "q" false [1]]

theorem cancelled_consumer_served : ¬ (Cancelling.after (plainEnv 64 1) guestOnly none
    cancelledEarly).Spared (plainEnv 64 1) "q" [true] 0 := by
  unfold Cancelling.Spared
  decide +kernel

end RocketmqBroker
