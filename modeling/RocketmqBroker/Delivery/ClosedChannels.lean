import RocketmqBroker.Delivery.Consumers

/-!
Channels that were closed, by the client or with a channel error. Closing takes the
limits of the channel away and nothing else, and an error not even these: consumers
stay in their queues, where a channel without limits always has room, and messages
stay in flight. A channel is closed well when nothing is left on it.
-/
namespace RocketmqBroker
open Run.Program

def Frame.isChannelClose : Frame → Bool
  | channelClose _ _ _ _ => true
  | _ => false

def Op.asks : Op → Bool
  | basicConsume _ _ _ => true
  | basicGet _ _ _ => true
  | _ => false

def Request.deliveredOn (r : Request) (f : Frame) : Option (UInt64 × UInt16) :=
  match r.op, f with
  | .deliverRound _ _ _, .basicDeliver connId channel _ _ => some (connId, channel)
  | .basicGet _ _ _, .basicGetOk _ _ _ _ _ _ => r.origin
  | _, _ => none

namespace BrokerState

def consumesOn (s : BrokerState) (d : UInt64 × UInt16) : Bool :=
  s.lists (fun c => (c.connId, c.channel) == d) (· == d)

def isReady (s : BrokerState) (queue : String) (tag : UInt64) : Bool :=
  (s.queues.get? queue).any fun q => q.messages.ready.any (·.id == tag)

end BrokerState

/-- A broker, what its clients have outstanding, and the channels that were closed and
    not opened again since. -/
structure Channels where
  observed : Observed
  closed : List (UInt64 × UInt16)

namespace Channels

def closes (env : Env) (o : Channels) (r : Request) : Option (UInt64 × UInt16) :=
  match r.op with
  | .channelClose connId channel => some (connId, channel)
  | op => if (answer env o.observed.broker op).any Frame.isChannelClose then r.origin else none

def step (env : Env) (o : Channels) (r : Request) : Channels where
  observed := o.observed.step env r
  closed :=
    match r.op with
    | .channelOpen connId channel => o.closed.filter (· ≠ (connId, channel))
    | _ => (o.closes env r).toList ++ o.closed

def start (env : Env) (auth : AuthBackend) (cluster : Option ClusterCoordinator) : Channels :=
  ⟨Observed.start env auth cluster, []⟩

def after (env : Env) (auth : AuthBackend) (cluster : Option ClusterCoordinator)
    (rs : List Request) : Channels := Run.run (step env) (start env auth cluster) rs

/-- Nothing is delivered on a closed channel, no queue has consumers on one, and what
    was outstanding on a channel when it is closed is ready again. -/
structure RespectsClose (env : Env) (o : Channels) (r : Request) : Prop where
  silent : ∀ d ∈ (answer env o.observed.broker r.op).filterMap r.deliveredOn, d ∉ o.closed
  gone : ∀ d ∈ (o.step env r).closed, (o.step env r).observed.broker.consumesOn d = false
  back : ∀ d ∈ o.closes env r, ∀ queue tag, ∀ out ∈ o.observed.outstanding.get? (queue, tag),
    (out.connId, out.channel) = d →
      (o.step env r).observed.broker.inFlight queue tag = false ∧
      (o.step env r).observed.broker.isReady queue tag = true

structure Idle (o : Channels) (d : UInt64 × UInt16) : Prop where
  consumers : o.observed.broker.consumesOn d = false
  settled : ∀ e ∈ o.observed.outstanding.entries, (e.2.connId, e.2.channel) ≠ d

instance (o : Channels) (d : UInt64 × UInt16) : Decidable (o.Idle d) :=
  decidable_of_iff (o.observed.broker.consumesOn d = false ∧
    ∀ e ∈ o.observed.outstanding.entries, (e.2.connId, e.2.channel) ≠ d)
    ⟨fun h => ⟨h.1, h.2⟩, fun h => ⟨h.consumers, h.settled⟩⟩

/-- A channel is closed when it is idle, and a closed one is not asked for messages. -/
structure WellClosed (env : Env) (o : Channels) (r : Request) : Prop where
  idle : ∀ d ∈ o.closes env r, o.Idle d
  asks : r.op.asks = true → ∀ d ∈ r.origin, d ∉ o.closed

instance (env : Env) (o : Channels) (r : Request) : Decidable (o.WellClosed env r) :=
  have : Decidable (∀ d ∈ o.closes env r, o.Idle d) := Option.decidableForallMem _
  have (d : UInt64 × UInt16) : Decidable (∀ c ∈ o.closed, d ≠ c) := List.decidableBAll _ _
  have (d : UInt64 × UInt16) : Decidable (d ∉ o.closed) := decidable_of_iff _ List.forall_mem_ne
  have : Decidable (∀ d ∈ r.origin, d ∉ o.closed) := Option.decidableForallMem _
  decidable_of_iff ((∀ d ∈ o.closes env r, o.Idle d) ∧
    (r.op.asks = true → ∀ d ∈ r.origin, d ∉ o.closed))
    ⟨fun h => ⟨h.1, h.2⟩, fun h => ⟨h.idle, h.asks⟩⟩

def Gone (o : Channels) : Prop :=
  ∀ d ∈ o.closed,
    Unlisted o.observed.broker.view.queue (fun c => (c.connId, c.channel) == d) (· == d)

end Channels

theorem Request.origin_eq {r : Request} {connId : UInt64} {channel : UInt16}
    (client : r.op.client? = some connId) (named : r.op.channel? = some channel) :
    r.origin = some (connId, channel) := by
  have conn := r.client.resolve_left (by rw [client]; exact Option.some_ne_none connId)
  have same := r.channel.resolve_left (by rw [named]; exact Option.some_ne_none channel)
  rw [client] at conn
  rw [named] at same
  obtain ⟨d, found, rfl⟩ := Option.map_eq_some_iff.mp conn
  rw [found] at same
  rw [found, ← Option.some.inj same]

section
variable {env : Env} {o : Channels} {r : Request}

theorem unlisted_step {d : UInt64 × UInt16}
    (unlisted : Unlisted o.observed.broker.view.queue (fun c => (c.connId, c.channel) == d)
      (· == d))
    (other : r.op.asks = true → o.closes env r = none → r.origin ≠ some d) :
    Unlisted (o.step env r).observed.broker.view.queue (fun c => (c.connId, c.channel) == d)
      (· == d) := by
  refine (serves_any env o.observed.broker r.op).unlisted unlisted
    fun connId channel args asked accepted => ?_
  have origin : r.origin = some (connId, channel) :=
    Request.origin_eq (by rw [asked]; rfl) (by rw [asked]; rfl)
  have kept : o.closes env r = none := by
    unfold Channels.closes
    rw [asked] at accepted ⊢
    refine if_neg fun closed => ?_
    obtain ⟨f, member, closing⟩ := List.any_eq_true.mp closed
    cases f with
    | channelClose code text classId methodId => exact accepted code text classId methodId member
    | _ => cases closing
  have apart : ((connId, channel) == d) = false := by
    refine Bool.eq_false_iff.mpr fun same => ?_
    exact other (by rw [asked]; rfl) kept (origin.trans (congrArg some (eq_of_beq same)))
  exact ⟨apart, apart⟩

theorem mem_closed_step {d : UInt64 × UInt16} (member : d ∈ (o.step env r).closed) :
    d ∈ o.closed ∨ o.closes env r = some d := by
  unfold Channels.step at member
  dsimp only at member
  split at member
  · exact .inl (List.mem_filter.mp member).1
  · cases List.mem_append.mp member with
    | inl new => exact .inr (Option.mem_toList.mp new)
    | inr old => exact .inl old

theorem Channels.Gone.step (closed : o.WellClosed env r) (gone : o.Gone) :
    (o.step env r).Gone := by
  intro d member
  cases mem_closed_step member with
  | inl old =>
    refine unlisted_step (gone d old) fun asks _ origin => ?_
    exact closed.asks asks d origin old
  | inr new =>
    refine unlisted_step ((unlisted_iff _).mpr (closed.idle d new).consumers) fun _ none => ?_
    rw [none] at new
    cases new

theorem Channels.Gone.silent (closed : o.WellClosed env r) (gone : o.Gone) :
    ∀ d ∈ (answer env o.observed.broker r.op).filterMap r.deliveredOn, d ∉ o.closed := by
  intro d delivered member
  obtain ⟨f, sent, on⟩ := List.mem_filterMap.mp delivered
  unfold Request.deliveredOn at on
  split at on
  · rename_i queue answers now connId channel tag m asked
    obtain rfl := Option.some.inj on
    rw [asked] at sent
    obtain ⟨c, listed, -, rfl, rfl⟩ := listed_of_delivered sent
    have unlisted := (QueueView.lists_eq_false.mp (gone _ member queue)).1 c listed
    simp at unlisted
  · rename_i asked
    exact closed.asks (by rw [asked]; rfl) d on member
  · cases on

theorem Channels.Gone.respects (closed : o.WellClosed env r) (gone : o.Gone) :
    o.RespectsClose env r where
  silent := gone.silent closed
  gone d member := (unlisted_iff _).mp (gone.step closed d member)
  back d closing queue tag out found here := by
    have member := FinMap.get?_eq_some_iff_mem.mp found
    exact absurd here ((closed.idle d closing).settled _ member)

end

/-- In a run whose channels are all closed well, every step respects the closed ones. -/
theorem closes_respected (env : Env) (auth : AuthBackend) (cluster : Option ClusterCoordinator)
    (rs : List Request)
    (closed : Run.Along (Channels.step env) (Channels.WellClosed env)
      (Channels.start env auth cluster) rs)
    (before after : List Request) (r : Request) (split : rs = before ++ r :: after) :
    (Channels.after env auth cluster before).RespectsClose env r := by
  rw [split, Run.along_append] at closed
  have gone := Run.invariant (fun _ => Channels.Gone) (fun d member => by cases member)
    (fun _ o r closed gone => gone.step closed) closed.1
  exact gone.respects closed.2.1

def consumerOnChannel : List Op :=
  session "q" ++ [.basicConsume 1 1 ⟨"q", "t", false, false, false, []⟩]

def roundOfOne : Op := .deliverRound "q" [true] 0

/-- The queue is deleted before the channel is closed. A second channel then consumes one of
    the same name. -/
def closedIdle : List Request :=
  Request.onFirstChannel (consumerOnChannel ++
    [.queueDelete 1 "q" false false false, .channelClose 1 1]) ++
  [.channelOpen 1 2, .queueDeclare 1 ⟨"q", false, true, false, false, false, []⟩ 0,
    .basicConsume 1 2 ⟨"q", "t", false, false, false, []⟩,
    .basicPublish 1 2 ⟨"", "q", false, .default, [1]⟩ 0].map (.arriving 2)

theorem closes_respected_idle :
    let o := Channels.after (plainEnv 64 1) guestOnly none closedIdle
    let round := Request.arriving 2 roundOfOne
    (o.closed = [(1, 1)] ∧
      (answer (plainEnv 64 1) o.observed.broker roundOfOne).filterMap round.deliveredOn =
        [(1, 2)]) ∧
      o.RespectsClose (plainEnv 64 1) round := by
  refine ⟨by decide +kernel, ?_⟩
  exact closes_respected (plainEnv 64 1) guestOnly none (closedIdle ++ [.arriving 2 roundOfOne])
    (by decide +kernel) closedIdle [] (.arriving 2 roundOfOne) (by rfl)

/-- The channel is closed with a consumer and one of two messages outstanding. -/
def closedInUse : List Request := Request.onFirstChannel (consumerOnChannel ++
  [publishTo "q" false [1], roundOfOne, publishTo "q" false [2], .channelClose 1 1])

theorem closed_channel_served : ¬ (Channels.after (plainEnv 64 1) guestOnly none
    closedInUse).RespectsClose (plainEnv 64 1) (.arriving 1 roundOfOne) := by
  intro respects
  have silent := respects.silent (1, 1) (by decide +kernel)
  exact silent (by decide +kernel)

end RocketmqBroker
