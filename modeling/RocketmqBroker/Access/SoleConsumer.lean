import RocketmqBroker.Access.Exclusive
import RocketmqBroker.Consumers.Leaving

/-!
Exclusive consumers. Whether a consumer asked to be alone is looked at when it comes and
kept nowhere, so whoever comes after it is turned away only when asking for the same.
-/
namespace RocketmqBroker
open Run Run.Program

inductive ConsumerCall where
  | consume (connId : UInt64) (channel : UInt16) (args : ConsumeArgs)
  | cancel (connId : UInt64) (tag : String) (noWait : Bool)
  | disconnect (connId : UInt64)

def ConsumerCall.op : ConsumerCall → Op
  | consume connId channel args => .basicConsume connId channel args
  | cancel connId tag noWait => .basicCancel connId tag noWait
  | disconnect connId => .disconnect connId

structure Holder where
  queue : String
  consumer : Consumer
  deriving DecidableEq

/-- A broker, and the consumers that were accepted with the exclusive flag and have neither
    been cancelled nor lost their connection since. -/
structure Holding where
  broker : BrokerState
  holders : List Holder

def Holding.step (env : Env) (o : Holding) (call : ConsumerCall) : Holding where
  broker := served env o.broker call.op
  holders :=
    match call with
    | .consume connId channel args =>
      if args.exclusive && o.broker.acceptsConsumer env connId args then
        ⟨args.queue, o.broker.consumerTagFor connId args, connId, channel, args.noAck⟩ :: o.holders
      else o.holders
    | .cancel connId tag _ =>
      o.holders.filter fun h => !(h.consumer.connId == connId && h.consumer.tag == tag)
    | .disconnect connId => o.holders.filter fun h => h.consumer.connId != connId

/-- The consumer is the only one that the queue knows, and the only one it delivers to. -/
structure QueueState.ServesOnly (q : QueueState) (c : Consumer) : Prop where
  registered : snapshotConsumers q.consumerTags = [c]
  active : q.activeConsumers = [c]

structure TurnsAway (env : Env) (s : BrokerState) (connId : UInt64) (channel : UInt16)
    (args : ConsumeArgs) : Prop where
  closes : ∃ code text classId methodId,
    answer env s (.basicConsume connId channel args) = [.channelClose code text classId methodId]
  queues : (served env s (.basicConsume connId channel args)).queues = s.queues

namespace Holding

/-- Every holder is alone with its queue, as long as that is there. -/
def Alone (o : Holding) : Prop :=
  ∀ h ∈ o.holders, ∀ q, o.broker.queues.get? h.queue = some q → q.ServesOnly h.consumer

/-- Nobody else comes to the queue of a holder, and the holders are alone afterwards. -/
structure Excludes (env : Env) (o : Holding) (call : ConsumerCall) : Prop where
  others : ∀ connId channel args, call = .consume connId channel args →
    ∀ h ∈ o.holders, h.queue = args.queue → TurnsAway env o.broker connId channel args
  alone : (o.step env call).Alone

/-- Who comes to the queue of a holder asks for exclusivity as well, or is refused for
    something else, and can be told so. -/
def AskedAlike (env : Env) (o : Holding) : ConsumerCall → Prop
  | .consume connId _ args => ∀ h ∈ o.holders, h.queue = args.queue →
    (args.exclusive = true ∨ checkPermission env o.broker connId (·.read) args.queue = false ∨
      ((validateConsumerSchema args : Act env (Option String)).result o.broker).isSome = true ∨
      o.broker.queues.contains args.queue = false) ∧ ¬ ConsumePanics env o.broker connId args
  | _ => True

end Holding

namespace QueueState

theorem snapshotConsumers_retain (tags : FinMap String (UInt64 × UInt16 × Bool))
    (connId : UInt64) : snapshotConsumers (tags.retain fun _ c => c.1 != connId) =
      (snapshotConsumers tags).filter fun c => c.connId != connId := by
  unfold snapshotConsumers FinMap.retain
  rw [List.filter_map]
  rfl

theorem keys_of_snapshot {tags : FinMap String (UInt64 × UInt16 × Bool)} :
    tags.keys = (snapshotConsumers tags).map Consumer.tag := by
  unfold snapshotConsumers
  rw [List.map_map]
  rfl

theorem servesOnly_addConsumer {q : QueueState} (unused : q.consumerTags.keys.isEmpty = true)
    (connId : UInt64) (channel : UInt16) (tag : String) (noAck : Bool) :
    (q.addConsumer connId channel tag noAck).ServesOnly ⟨tag, connId, channel, noAck⟩ := by
  have empty : q.consumerTags = ∅ := by
    apply AList.ext
    rw [List.isEmpty_iff, keys_of_snapshot, List.map_eq_nil_iff] at unused
    exact List.map_eq_nil_iff.mp unused
  have one : snapshotConsumers (q.consumerTags.insert tag (connId, channel, noAck)) =
      [⟨tag, connId, channel, noAck⟩] := by
    rw [empty]
    rfl
  exact ⟨one, one⟩

theorem servesOnly_left {q : QueueState} {c : Consumer} (only : q.ServesOnly c)
    {connId : UInt64} (other : c.connId ≠ connId) (s : BrokerState) (name : String) :
    (s.left connId name q).ServesOnly c := by
  have kept := q.keptBy_putBackAll (s.listedTags connId name)
  constructor
  · change snapshotConsumers ((q.putBackAll _).consumerTags.retain fun _ c => c.1 != connId) = [c]
    rw [kept.consumerTags, snapshotConsumers_retain, only.registered]
    exact List.filter_cons_of_pos (bne_iff_ne.mpr other)
  · change (q.putBackAll _).activeConsumers = [c]
    rw [kept.active]
    exact only.active

end QueueState

section
variable {env : Env} {s : BrokerState} {o : Holding} {connId : UInt64} {channel : UInt16}
  {args : ConsumeArgs}

theorem turnsAway_iff : TurnsAway env s connId channel args ↔
    s.acceptsConsumer env connId args = false ∧ ¬ ConsumePanics env s connId args := by
  obtain ⟨closes, answers⟩ := @decides_basicConsume env s connId channel args
  constructor
  · rintro ⟨⟨code, text, classId, methodId, close⟩, -⟩
    by_contra accepted
    exact answers accepted code text classId methodId close
  · intro refused
    obtain ⟨close, queues, -⟩ := closes refused
    exact ⟨close, queues⟩

theorem refused_beside (alone : o.Alone) {h : Holder} (holds : h ∈ o.holders)
    (same : h.queue = args.queue) : o.broker.acceptsConsumer env connId args = false ↔
      args.exclusive = true ∨ checkPermission env o.broker connId (·.read) args.queue = false ∨
        ((validateConsumerSchema args : Act env (Option String)).result o.broker).isSome = true ∨
        o.broker.queues.contains args.queue = false := by
  unfold BrokerState.acceptsConsumer BrokerState.hasConsumers FinMap.contains
  cases found : o.broker.queues.get? args.queue with
  | none => simp
  | some q =>
    have only := alone h holds q (same ▸ found)
    have busy : q.consumerTags.keys.isEmpty = false := by
      rw [QueueState.keys_of_snapshot, only.registered]
      rfl
    rw [Option.any_some, busy, Bool.not_false, Bool.and_true, Option.isSome_some, Bool.and_true,
      Bool.and_eq_false_iff, Bool.and_eq_false_iff, Bool.not_eq_false', Option.isNone_eq_false_iff]
    simp only [Bool.true_eq_false, or_false, or_assoc, or_left_comm]

theorem alone_consume (alone : o.Alone)
    (refused : ∀ h ∈ o.holders, h.queue = args.queue →
      o.broker.acceptsConsumer env connId args = false) :
    (o.step env (.consume connId channel args)).Alone := by
  have outcome := registries_basicConsume env o.broker connId channel args
  cases accepted : o.broker.acceptsConsumer env connId args with
  | false =>
    rw [accepted, if_neg Bool.false_ne_true] at outcome
    have queues : (served env o.broker (.basicConsume connId channel args)).queues =
      o.broker.queues := (Prod.mk.inj outcome).1
    intro h holds q found
    dsimp only [Holding.step, ConsumerCall.op] at holds found
    rw [accepted, Bool.and_false, if_neg Bool.false_ne_true] at holds
    rw [queues] at found
    exact alone h holds q found
  | true =>
    rw [accepted, if_pos rfl] at outcome
    have queues : (served env o.broker (.basicConsume connId channel args)).queues =
      o.broker.queues.modify args.queue fun q => q.addConsumer connId channel
        (o.broker.consumerTagFor connId args) args.noAck := (Prod.mk.inj outcome).1
    have old (h : Holder) (holds : h ∈ o.holders) (q : QueueState)
        (found : (served env o.broker (.basicConsume connId channel args)).queues.get? h.queue =
          some q) : q.ServesOnly h.consumer := by
      have elsewhere : h.queue ≠ args.queue := fun same => by
        rw [refused h holds same] at accepted
        cases accepted
      rw [queues, FinMap.get?_modify, if_neg elsewhere] at found
      exact alone h holds q found
    intro h holds q found
    dsimp only [Holding.step, ConsumerCall.op] at holds found
    rw [accepted, Bool.and_true] at holds
    split at holds
    case isFalse => exact old h holds q found
    rename_i exclusive
    cases List.mem_cons.mp holds with
    | inr before => exact old h before q found
    | inl new =>
      subst new
      rw [queues, FinMap.get?_modify, if_pos rfl] at found
      obtain ⟨q, there, rfl⟩ := Option.map_eq_some_iff.mp found
      have unused : q.consumerTags.keys.isEmpty = true := by
        simp only [BrokerState.acceptsConsumer, BrokerState.hasConsumers, there, exclusive,
          Bool.and_eq_true, Option.any_some, Bool.true_and, Bool.not_not] at accepted
        exact accepted.1.1.2
      exact QueueState.servesOnly_addConsumer unused _ _ _ _

theorem alone_cancel (alone : o.Alone) (tag : String) (noWait : Bool) :
    (o.step env (.cancel connId tag noWait)).Alone := by
  intro h holds q found
  exact alone h (List.mem_filter.mp holds).1 q found

theorem alone_disconnect (alone : o.Alone) : (o.step env (.disconnect connId)).Alone := by
  intro h holds r there
  obtain ⟨before, other⟩ := List.mem_filter.mp holds
  change (served env o.broker (.disconnect connId)).queues.get? h.queue = some r at there
  cases found : o.broker.queues.get? h.queue with
  | none =>
    rw [get?_disconnect, found] at there
    cases there
  | some q =>
    obtain ⟨-, rfl⟩ := remains_after found there
    exact QueueState.servesOnly_left (alone h before q found) (bne_iff_ne.mp other) _ _

theorem excludes_iff (alone : o.Alone) (call : ConsumerCall) :
    o.Excludes env call ↔ o.AskedAlike env call := by
  cases call with
  | consume connId channel args =>
    constructor
    · intro excludes h holds same
      have away := excludes.others connId channel args rfl h holds same
      obtain ⟨refused, told⟩ := turnsAway_iff.mp away
      exact ⟨(refused_beside alone holds same).mp refused, told⟩
    · intro asked
      have refused (h : Holder) (holds : h ∈ o.holders) (same : h.queue = args.queue) :
          o.broker.acceptsConsumer env connId args = false :=
        (refused_beside alone holds same).mpr (asked h holds same).1
      refine ⟨?_, alone_consume alone refused⟩
      rintro _ _ _ ⟨⟩ h holds same
      exact turnsAway_iff.mpr ⟨refused h holds same, (asked h holds same).2⟩
  | cancel connId tag noWait =>
    refine iff_of_true ⟨fun _ _ _ same => ?_, alone_cancel alone tag noWait⟩ trivial
    cases same
  | disconnect connId =>
    refine iff_of_true ⟨fun _ _ _ same => ?_, alone_disconnect alone⟩ trivial
    cases same

end

/-- In any run in which consumers come and go, whoever was accepted as an exclusive one is
    alone with its queue exactly if everyone who comes to it asks for the same. -/
theorem exclusive_consumer_iff (env : Env) (s : BrokerState) (calls : List ConsumerCall) :
    Along (Holding.step env) (Holding.Excludes env) ⟨s, []⟩ calls ↔
      Along (Holding.step env) (Holding.AskedAlike env) ⟨s, []⟩ calls := by
  refine along_congr_kept Holding.Alone (fun o call alone => excludes_iff alone call)
    (fun o call excludes _ => excludes.alone) ?_ calls
  intro h holds
  cases holds

def sharedQueue : BrokerState := reached (plainEnv 64 1) guestOnly none
  (session "q" ++ [.connect "127.0.0.1:50001" "guest" "/", .channelOpen 2 1])

/-- The first one consumes exclusively, and the second one all the same. -/
theorem exclusive_consumer_joined : ¬ Along (Holding.step (plainEnv 64 1))
    (Holding.Excludes (plainEnv 64 1)) ⟨sharedQueue, []⟩
    [.consume 1 1 ⟨"q", "t", false, true, false, []⟩,
      .consume 2 1 ⟨"q", "u", false, false, false, []⟩] := by
  intro along
  have away := along.2.1.others 2 1 ⟨"q", "u", false, false, false, []⟩ rfl
    ⟨"q", "t", 1, 1, false⟩ (by decide +kernel) rfl
  obtain ⟨code, text, classId, methodId, close⟩ := away.closes
  have consumed : answer (plainEnv 64 1) (Holding.step (plainEnv 64 1) ⟨sharedQueue, []⟩
      (.consume 1 1 ⟨"q", "t", false, true, false, []⟩)).broker
      (.basicConsume 2 1 ⟨"q", "u", false, false, false, []⟩) = [.basicConsumeOk "u"] := by
    decide +kernel
  have same : [Frame.basicConsumeOk "u"] = [.channelClose code text classId methodId] :=
    consumed.symm.trans close
  simp at same

end RocketmqBroker
