import RocketmqBroker.Delivery.Outstanding
import RocketmqBroker.Lib.FinMap

/-!
The unacked count of a channel against what is outstanding on it. The count goes up
with each delivery of a round and down with each settlement, before the tag is
looked at. It stays exact as long as settlements name deliveries of their channel,
Basic.Get takes nothing that is to be acknowledged, the count does not overflow, and
nothing that is outstanding on an open channel goes away by itself.
-/
namespace RocketmqBroker
open Run.Program

namespace Deliveries

def onChannel (out : Deliveries) (connId : UInt64) (channel : UInt16) : Nat :=
  out.tally fun d => d.connId == connId && d.channel == channel

def under (out : Deliveries) (connId : UInt64) (channel prefetchCount : UInt16) : Nat :=
  out.tally fun d => d == ⟨connId, channel, prefetchCount⟩

end Deliveries

namespace Observed

/-- Every open channel counts what is outstanding on it, and has no more of that than
    its prefetch count allows. -/
structure Exact (o : Observed) : Prop where
  counted : ∀ connId channel, ∀ ch ∈ o.broker.channel? connId channel,
    ch.unackedCount.toNat = o.outstanding.onChannel connId channel
  limited : ∀ connId channel, ∀ ch ∈ o.broker.channel? connId channel, ch.prefetchCount ≠ 0 →
    o.outstanding.under connId channel ch.prefetchCount ≤ ch.prefetchCount.toNat

/-- A settlement names a delivery that is outstanding on its channel, or nothing at
    all while the channel counts nothing. -/
def SettlesCounted (o : Observed) (connId : UInt64) (channel : UInt16) (tag : UInt64) : Prop :=
  match (o.broker.deliveryIndex.get? tag).filter fun queue => o.broker.inFlight queue tag with
  | some queue => ∀ d ∈ o.outstanding.get? (queue, tag), d.connId = connId ∧ d.channel = channel
  | none => ∀ ch ∈ o.broker.channel? connId channel, ch.unackedCount = 0

/-- What a connection lists as its own is not outstanding on another one's open
    channel. -/
def ListsOwn (o : Observed) (connId : UInt64) : Prop :=
  ∀ k ∈ (o.broker.connDeliveries.get? connId).getD [], ∀ d ∈ o.outstanding.get? k,
    d.connId = connId ∨ o.broker.channel? d.connId d.channel = none

instance (o : Observed) (connId : UInt64) (channel : UInt16) (tag : UInt64) :
    Decidable (o.SettlesCounted connId channel tag) := by
  unfold SettlesCounted
  split
  · exact Option.decidableForallMem _
  · exact Option.decidableForallMem _

instance (o : Observed) (connId : UInt64) : Decidable (o.ListsOwn connId) :=
  have (k : String × UInt64) : Decidable (∀ d ∈ o.outstanding.get? k,
      d.connId = connId ∨ o.broker.channel? d.connId d.channel = none) :=
    Option.decidableForallMem _
  List.decidableBAll _ _

/-- Settlements are of deliveries of their channel; a channel is opened with nothing
    outstanding on it; a connection goes with deliveries of its own. -/
def Settled (o : Observed) : Op → Prop
  | .basicAck connId channel tag => o.SettlesCounted connId channel tag
  | .basicReject connId channel tag _ => o.SettlesCounted connId channel tag
  | .basicNack connId channel tag _ => o.SettlesCounted connId channel tag
  | .txCommit connId => o.broker.bufferedAcks connId = []
  | .channelOpen connId channel => o.broker.channel? connId channel = none →
      o.outstanding.onChannel connId channel = 0
  | .disconnect connId => o.ListsOwn connId
  | _ => True

instance (o : Observed) (op : Op) : Decidable (o.Settled op) := by
  unfold Settled
  split <;> infer_instance

/-- Messages go in flight in rounds only, under an id that is not in flight, and on a
    channel whose count can go up; a queue goes with nothing outstanding on an open
    channel. -/
def Counts (o : Observed) (op : Op) (s : BrokerState) : Effect → Prop
  | .pop queue .hold => op.isRound = true ∧
      (∀ q ∈ s.queues.get? queue, ∀ front ∈ q.messages.popFront,
        s.inFlight queue front.1.id = false) ∧
      ∀ c ∈ s.onTurn queue, ∀ ch ∈ s.channel? c.connId c.channel, ch.unackedCount.toNat < 65535
  | .removeQueue name => ∀ q ∈ s.queues.get? name, ∀ tag ∈ q.inflight.keys,
      ∀ d ∈ o.outstanding.get? (name, tag), s.channel? d.connId d.channel = none
  | _ => True

instance (o : Observed) (op : Op) (s : BrokerState) (e : Effect) : Decidable (o.Counts op s e) := by
  apply Effect.casesOn (motive := fun e => Decidable (o.Counts op s e)) e
  case pop =>
    intro queue fate
    apply Fate.casesOn (motive := fun fate => Decidable (o.Counts op s (.pop queue fate))) fate
    case hold =>
      have front (q : QueueState) : Decidable (∀ front ∈ q.messages.popFront,
          s.inFlight queue front.1.id = false) := Option.decidableForallMem q.messages.popFront
      have fresh : Decidable (∀ q ∈ s.queues.get? queue, ∀ front ∈ q.messages.popFront,
          s.inFlight queue front.1.id = false) := Option.decidableForallMem (s.queues.get? queue)
      have below (c : Consumer) : Decidable (∀ ch ∈ s.channel? c.connId c.channel,
          ch.unackedCount.toNat < 65535) := Option.decidableForallMem _
      have turn : Decidable (∀ c ∈ s.onTurn queue, ∀ ch ∈ s.channel? c.connId c.channel,
          ch.unackedCount.toNat < 65535) := Option.decidableForallMem _
      exact inferInstanceAs (Decidable (_ ∧ _ ∧ _))
    all_goals exact isTrue trivial
  case removeQueue =>
    intro name
    have closed (d : Unsettled) : Decidable (s.channel? d.connId d.channel = none) := inferInstance
    have each (tag : UInt64) : Decidable (∀ d ∈ o.outstanding.get? (name, tag),
        s.channel? d.connId d.channel = none) := Option.decidableForallMem _
    have all (q : QueueState) : Decidable (∀ tag ∈ q.inflight.keys,
        ∀ d ∈ o.outstanding.get? (name, tag), s.channel? d.connId d.channel = none) :=
      List.decidableBAll _ _
    exact Option.decidableForallMem _
  all_goals
    intros
    exact isTrue trivial

structure CountedStep (env : Env) (o : Observed) (r : Request) : Prop where
  settled : o.Settled r.op
  counts : Run.Along (exec env) (o.Counts r.op) o.broker
    ((handle r.op : Act env (List Frame)).steps o.broker)

instance (env : Env) (o : Observed) (r : Request) : Decidable (o.CountedStep env r) :=
  decidable_of_iff (o.Settled r.op ∧ Run.Along (exec env) (o.Counts r.op) o.broker
    ((handle r.op : Act env (List Frame)).steps o.broker))
    ⟨fun h => ⟨h.1, h.2⟩, fun h => ⟨h.settled, h.counts⟩⟩

end Observed

/-- The invariant: what is outstanding is what is in flight, and the counts of open
    channels are exact. -/
structure Counted (v : DeliveryView) (out : Deliveries) : Prop where
  sound : ∀ queue tag, (out.get? (queue, tag)).isSome = true →
    ((v.queue queue).inflight tag).isSome = true
  exact : ∀ connId channel, ∀ l ∈ v.limits connId channel,
    l.2.toNat = out.onChannel connId channel
  within : ∀ connId channel prefetchCount, prefetchCount ≠ 0 →
    out.under connId channel prefetchCount ≤ prefetchCount.toNat
  distinct : ∀ name, ((v.queue name).activeConsumers.map Consumer.tag).Nodup

namespace Deliveries
variable {out out' : Deliveries}

theorem onChannel_congr {connId : UInt64} {channel : UInt16}
    (same : ∀ k d, d.connId = connId → d.channel = channel →
      (out.get? k = some d ↔ out'.get? k = some d)) :
    out.onChannel connId channel = out'.onChannel connId channel := by
  refine FinMap.tally_congr fun k d counts => ?_
  rw [Bool.and_eq_true, beq_iff_eq, beq_iff_eq] at counts
  exact same k d counts.1 counts.2

theorem under_le {connId : UInt64} {channel prefetchCount : UInt16}
    (fewer : ∀ k d, out'.get? k = some d → out.get? k = some d) :
    out'.under connId channel prefetchCount ≤ out.under connId channel prefetchCount :=
  FinMap.tally_le fun k d found _ => fewer k d found

theorem under_le_onChannel (connId : UInt64) (channel prefetchCount : UInt16) :
    out.under connId channel prefetchCount ≤ out.onChannel connId channel := by
  unfold under onChannel FinMap.tally
  refine (List.Sublist.length_le ?_)
  refine List.monotone_filter_right _ fun e counts => ?_
  rw [beq_iff_eq] at counts
  rw [counts]
  simp

theorem channel_counts (d : Unsettled) (connId : UInt64) (channel : UInt16) :
    (if (d.connId == connId && d.channel == channel) = true then 1 else 0) =
      if connId = d.connId ∧ channel = d.channel then 1 else 0 := by
  refine if_congr ?_ rfl rfl
  rw [Bool.and_eq_true, beq_iff_eq, beq_iff_eq]
  exact and_congr eq_comm eq_comm

theorem onChannel_insert {k : String × UInt64} {d : Unsettled} (new : out.get? k = none)
    (connId : UInt64) (channel : UInt16) :
    onChannel (out.insert k d) connId channel = out.onChannel connId channel +
      if connId = d.connId ∧ channel = d.channel then 1 else 0 := by
  rw [← channel_counts]
  exact FinMap.tally_insert new

theorem onChannel_erase {k : String × UInt64} {d : Unsettled} (found : out.get? k = some d)
    (connId : UInt64) (channel : UInt16) :
    out.onChannel connId channel = onChannel (out.erase k) connId channel +
      if connId = d.connId ∧ channel = d.channel then 1 else 0 := by
  rw [← channel_counts]
  exact FinMap.tally_erase found

end Deliveries

def Deliveries.inView (out : Deliveries) (w : DeliveryView) : Deliveries :=
  FinMap.retain out fun k _ => ((w.queue k.1).inflight k.2).isSome

section
variable {v w : DeliveryView} {out : Deliveries}

theorem inView_get? (out : Deliveries) (w : DeliveryView) (k : String × UInt64) :
    (out.inView w).get? k = (out.get? k).filter fun _ => ((w.queue k.1).inflight k.2).isSome :=
  FinMap.get?_retain _ _ k

theorem inView_eq_some {k : String × UInt64} {d : Unsettled} :
    (out.inView w).get? k = some d ↔
      out.get? k = some d ∧ ((w.queue k.1).inflight k.2).isSome = true := by
  rw [inView_get?, Option.filter_eq_some_iff]

theorem counted_inView (counted : Counted v out)
    (distinct : ∀ name, ((w.queue name).activeConsumers.map Consumer.tag).Nodup)
    (exact : ∀ connId channel, ∀ l ∈ w.limits connId channel,
      l.2.toNat = (out.inView w).onChannel connId channel) : Counted w (out.inView w) where
  sound queue tag known := by
    obtain ⟨d, found⟩ := Option.isSome_iff_exists.mp known
    exact (inView_eq_some.mp found).2
  exact := exact
  within connId channel prefetchCount limited := by
    refine Nat.le_trans ?_ (counted.within connId channel prefetchCount limited)
    exact Deliveries.under_le fun k d found => (inView_eq_some.mp found).1
  distinct := distinct

def DeliveryView.Carries (w v : DeliveryView) : Prop :=
  ∀ connId channel, ∀ l ∈ w.limits connId channel,
    ∃ l' ∈ v.limits connId channel, l.2 = l'.2

/-- What is outstanding on an open channel is still in flight. -/
def DeliveryView.Steady (w : DeliveryView) (out : Deliveries) : Prop :=
  ∀ k d, out.get? k = some d → (w.limits d.connId d.channel).isSome = true →
    ((w.queue k.1).inflight k.2).isSome = true

theorem counted_steady (counted : Counted v out)
    (distinct : ∀ name, ((w.queue name).activeConsumers.map Consumer.tag).Nodup)
    (carries : w.Carries v) (steady : w.Steady out) : Counted w (out.inView w) := by
  refine counted_inView counted distinct fun connId channel l here => ?_
  obtain ⟨l', before, same⟩ := carries connId channel l here
  rw [same, counted.exact connId channel l' before]
  refine Deliveries.onChannel_congr fun k d conn chan => ?_
  rw [inView_eq_some]
  refine ⟨fun found => ⟨found, steady k d found ?_⟩, And.left⟩
  rw [conn, chan]
  exact Option.isSome_iff_exists.mpr ⟨l, here⟩

theorem Counted.steady (counted : Counted v out)
    (same : ∀ queue tag, ((v.queue queue).inflight tag).isSome = true →
      ((w.queue queue).inflight tag).isSome = true) : w.Steady out := by
  intro k d found _
  refine same k.1 k.2 (counted.sound k.1 k.2 ?_)
  rw [found]
  rfl

end

section
variable {env : Env} {s : BrokerState} {o : Observed}

theorem snapshot_tags (tags : FinMap String (UInt64 × UInt16 × Bool)) :
    ((QueueState.snapshotConsumers tags).map Consumer.tag).Nodup := by
  have keys : (QueueState.snapshotConsumers tags).map Consumer.tag = tags.keys := by
    unfold QueueState.snapshotConsumers
    rw [List.map_map]
    rfl
  rw [keys]
  exact tags.keys_nodup

theorem Serves.distinct {allowed : BrokerState → Effect → Prop} {op : Op} {frames : List Frame}
    {w : DeliveryView} (serves : Serves env allowed s op frames w)
    (distinct : ∀ name, ((s.view.queue name).activeConsumers.map Consumer.tag).Nodup)
    (name : String) : ((w.queue name).activeConsumers.map Consumer.tag).Nodup := by
  by_cases other : ∀ connId channel args, op ≠ .basicConsume connId channel args
  · exact (((serves.fewerConsumers other).active name).map _).nodup (distinct name)
  cases serves with
  | consumed connId channel args subscribe =>
    cases subscribe with
    | failed => exact distinct name
    | added =>
      simp only [DeliveryView.consume, Function.update_apply]
      split
      · exact snapshot_tags _
      · exact distinct name
  | quiet frames quiet =>
    exact distinct name
  | dropped frames drops =>
    exact absurd (fun _ _ _ same => by rw [same] at drops; cases drops) other
  | settled connId channel tag settles =>
    exact absurd (fun _ _ _ same => by rw [same] at settles; cases settles) other
  | _ => exact absurd (fun _ _ _ same => by cases same) other

theorem channel_of_limits {connId : UInt64} {channel : UInt16} {l : UInt16 × UInt16}
    (found : l ∈ s.view.limits connId channel) :
    ∃ ch ∈ s.channel? connId channel, l = (ch.prefetchCount, ch.unackedCount) := by
  obtain ⟨ch, here, rfl⟩ := Option.map_eq_some_iff.mp found
  exact ⟨ch, here, rfl⟩

theorem limits_of_channel {connId : UInt64} {channel : UInt16} {ch : ChannelState}
    (found : ch ∈ s.channel? connId channel) :
    (ch.prefetchCount, ch.unackedCount) ∈ s.view.limits connId channel :=
  Option.map_eq_some_iff.mpr ⟨ch, found, rfl⟩

theorem limits_isSome (s : BrokerState) (connId : UInt64) (channel : UInt16) :
    (s.view.limits connId channel).isSome = (s.channel? connId channel).isSome :=
  Option.isSome_map

theorem counted_settle_known {v : DeliveryView} {out : Deliveries} (counted : Counted v out)
    {connId tag : UInt64} {channel : UInt16} {queue : String}
    (known : v.known tag = some queue)
    (covered : ((v.queue queue).inflight tag).isSome = true → (out.get? (queue, tag)).isSome = true)
    (own : ∀ d ∈ out.get? (queue, tag), d.connId = connId ∧ d.channel = channel) :
    Counted ((v.spend connId channel).settle connId tag)
      (out.inView ((v.spend connId channel).settle connId tag)) := by
  have known' : (v.spend connId channel).known tag = some queue := known
  have settled : (v.spend connId channel).settle connId tag =
      (((v.spend connId channel).forget tag).release queue tag).untrack connId tag :=
    DeliveryView.settle_known known' connId
  have flight (k : String × UInt64) :
      ((((v.spend connId channel).settle connId tag).queue k.1).inflight k.2).isSome =
        (!(k == (queue, tag)) && ((v.queue k.1).inflight k.2).isSome) := by
    rw [DeliveryView.inflight_settle known']
    by_cases same : k = (queue, tag)
    · rw [if_pos (Prod.ext_iff.mp same), beq_iff_eq.mpr same]
      rfl
    · rw [if_neg fun both => same (Prod.ext both.1 both.2), beq_false_of_ne same]
      rfl
  obtain ⟨d, found⟩ := Option.isSome_iff_exists.mp
    (covered (Option.filter_eq_some_iff.mp known).2)
  obtain ⟨conn, chan⟩ := own d found
  have left (k : String × UInt64) (e : Unsettled) :
      (out.inView ((v.spend connId channel).settle connId tag)).get? k = some e ↔
        (out.erase (queue, tag)).get? k = some e := by
    rw [inView_eq_some, flight, FinMap.get?_erase]
    by_cases same : k = (queue, tag)
    · simp [same]
    · rw [if_neg same]
      refine ⟨And.left, fun here => ⟨here, ?_⟩⟩
      have present := counted.sound k.1 k.2 (by rw [here]; rfl)
      simp [same, present]
  refine counted_inView counted ?_ fun c h l here => ?_
  · intro name
    exact (((fewerConsumers_settle (v.spend connId channel) connId tag).active name).map _).nodup
      (counted.distinct name)
  have limits : ((v.spend connId channel).settle connId tag).limits =
      (v.spend connId channel).limits := by rw [settled]; rfl
  rw [limits] at here
  have tally : out.onChannel c h =
      (out.inView ((v.spend connId channel).settle connId tag)).onChannel c h +
        if c = connId ∧ h = channel then 1 else 0 := by
    rw [Deliveries.onChannel_erase found, conn, chan,
      Deliveries.onChannel_congr fun k e _ _ => left k e]
  simp only [DeliveryView.spend] at here
  split at here
  · rename_i same
    obtain ⟨l', before, rfl⟩ := Option.map_eq_some_iff.mp here
    have exact := counted.exact c h l' before
    rw [tally, if_pos same] at exact
    have positive : l'.2 > 0 := UInt16.lt_iff_toNat_lt.mpr (by rw [exact]; simp)
    rw [if_pos positive, UInt16.toNat_sub_of_le _ _ (UInt16.le_iff_toNat_le.mpr (by
      rw [exact]; simp)), exact]
    simp
  · rename_i other
    have exact := counted.exact c h l here
    rw [tally, if_neg other] at exact
    exact exact

theorem known_of_view {tag : UInt64} :
    ((s.deliveryIndex.get? tag).filter fun queue => s.inFlight queue tag) = s.view.known tag :=
  (view_known s tag).symm

theorem Counted.settles {v : DeliveryView} {out : Deliveries} (h : Counted v out)
    {connId tag : UInt64} {channel : UInt16} (unknown : v.known tag = none)
    (idle : ∀ l ∈ v.limits connId channel, l.2 = 0) :
    Counted ((v.spend connId channel).settle connId tag)
      (out.inView ((v.spend connId channel).settle connId tag)) := by
  have settled : (v.spend connId channel).settle connId tag =
      (v.spend connId channel).forget tag := by
    unfold DeliveryView.settle
    have unknown' : (v.spend connId channel).known tag = none := unknown
    rw [unknown']
  rw [settled]
  refine counted_steady h h.distinct ?_ (h.steady fun _ _ present => present)
  intro c k l here
  simp only [DeliveryView.forget, DeliveryView.spend] at here
  split at here
  · rename_i same
    obtain ⟨l', before, rfl⟩ := Option.map_eq_some_iff.mp here
    refine ⟨l', before, ?_⟩
    have zero := idle l' (by rw [← same.1, ← same.2]; exact before)
    simp [zero]
  · exact ⟨l, here, rfl⟩

theorem Drops.steady {op : Op} {v w : DeliveryView} (drops : Drops (o.Counts op) v w)
    (steady : v.Steady o.outstanding) : w.limits = v.limits ∧ w.Steady o.outstanding := by
  refine drops.invariant (fun u => u.limits = v.limits ∧ u.Steady o.outstanding) ?_
    ⟨rfl, steady⟩
  rintro s name counts ⟨limits, steady⟩
  refine ⟨limits, fun k d found here => ?_⟩
  have held := steady k d found here
  simp only [DeliveryView.dropQueue, Function.update_apply]
  split
  · rename_i same
    rw [view_inflight, BrokerState.inFlight, same] at held
    cases present : s.queues.get? name with
    | none =>
      rw [present] at held
      cases held
    | some q =>
      rw [present] at held
      have closed := counts q present k.2 (FinMap.contains_iff_mem_keys.mp held) d
        (by rw [← same]; exact found)
      change (s.view.limits d.connId d.channel).isSome = true at here
      rw [limits_isSome, closed] at here
      cases here
  · exact held

theorem counted_disconnect {op : Op} {connId : UInt64} {v w : DeliveryView}
    (counted : Counted o.broker.view o.outstanding) (own : o.ListsOwn connId)
    (distinct : ∀ name, ((w.queue name).activeConsumers.map Consumer.tag).Nodup)
    (first : Drops (o.Counts op) (o.broker.view.closeConnection connId) v)
    (rest : Drops (o.Counts op) ((v.requeueConnection connId).dropListeners connId) w) :
    Counted w (o.outstanding.inView w) := by
  obtain ⟨limits, steady⟩ := first.steady (counted.steady fun _ _ present => present)
  have conns : v.connDeliveries = o.broker.view.connDeliveries :=
    first.invariant (fun u => u.connDeliveries = o.broker.view.connDeliveries)
      (fun _ _ _ same => same) rfl
  obtain ⟨-, inflight, -, limits'⟩ := view_requeueAll
    { v with connDeliveries := Function.update v.connDeliveries connId [] }
    (v.connDeliveries connId)
  have back : ((v.requeueConnection connId).dropListeners connId).Steady o.outstanding := by
    intro k d found here
    have here' : (v.limits d.connId d.channel).isSome = true := by
      rw [← limits']
      exact here
    change (((v.requeueConnection connId).queue k.1).inflight k.2).isSome = true
    unfold DeliveryView.requeueConnection
    rw [inflight, if_neg]
    · exact steady k d found here'
    · intro listed
      rw [conns] at listed
      have closed := own k listed d found
      rw [limits, DeliveryView.closeConnection] at here'
      dsimp only at here'
      split at here'
      · cases here'
      · rename_i other
        rw [limits_isSome, closed.resolve_left other] at here'
        cases here'
  obtain ⟨limits'', steady'⟩ := rest.steady back
  refine counted_steady counted distinct (fun c h l here => ?_) steady'
  rw [limits''] at here
  have here' : l ∈ v.limits c h := by
    rw [← limits']
    exact here
  rw [limits, DeliveryView.closeConnection] at here'
  dsimp only at here'
  split at here'
  · cases here'
  · exact ⟨l, here', rfl⟩

theorem prefetch_eq {connId : UInt64} {channel : UInt16} {p : UInt16} (limited : p ≠ 0)
    (prefetch : s.prefetchOf connId channel = p) :
    (s.view.limits connId channel).map Prod.fst = some p := by
  rw [view_limits, Option.map_map]
  unfold BrokerState.prefetchOf at prefetch
  cases found : s.channel? connId channel with
  | none =>
    rw [found] at prefetch
    exact absurd prefetch.symm limited
  | some ch =>
    rw [found] at prefetch
    exact congrArg some prefetch

theorem counted_hold {v : DeliveryView} {out : Deliveries} (counted : Counted v out)
    {queue name : String} {m : Message} {c : Consumer} {prefetch : UInt16}
    (fresh : ((v.queue queue).inflight m.id).isSome = false)
    (room : v.Room c.connId c.channel)
    (below : ∀ l ∈ v.limits c.connId c.channel, l.2.toNat < 65535)
    (made : prefetch ≠ 0 → (v.limits c.connId c.channel).map Prod.fst = some prefetch) :
    Counted ((v.hold queue name m c.connId).count c.connId c.channel)
      (out.insert (queue, m.id) ⟨c.connId, c.channel, prefetch⟩) := by
  have new : out.get? (queue, m.id) = none := by
    cases found : out.get? (queue, m.id) with
    | none => rfl
    | some d =>
      have held := counted.sound queue m.id (by rw [found]; rfl)
      rw [fresh] at held
      cases held
  have flight (other : String) (tag : UInt64) :
      ((((v.hold queue name m c.connId).count c.connId c.channel).queue other).inflight
        tag).isSome =
        ((other, tag) == (queue, m.id) || ((v.queue other).inflight tag).isSome) := by
    simp only [DeliveryView.count, DeliveryView.hold, DeliveryView.track, DeliveryView.take,
      Function.update_apply]
    by_cases here : other = queue
    · subst here
      by_cases same : tag = m.id <;> simp [same]
    · simp [here]
  constructor
  · intro other tag present
    rw [flight]
    rw [FinMap.get?_insert] at present
    split at present
    · rename_i same
      simp [same]
    · rw [counted.sound other tag present, Bool.or_true]
  · intro connId channel l here
    rw [Deliveries.onChannel_insert new]
    simp only [DeliveryView.count] at here
    split at here
    · rename_i same
      obtain ⟨l', before, rfl⟩ := Option.map_eq_some_iff.mp here
      have exact := counted.exact connId channel l' before
      have bound := below l' (by rw [← same.1, ← same.2]; exact before)
      rw [if_pos same, ← exact, UInt16.toNat_add]
      exact Nat.mod_eq_of_lt (Nat.add_lt_of_lt_sub bound)
    · rename_i other
      rw [if_neg other]
      exact counted.exact connId channel l here
  · intro connId channel p limited
    change FinMap.tally _ _ ≤ _
    rw [FinMap.tally_insert new]
    split
    · rename_i counts
      rw [beq_iff_eq] at counts
      obtain ⟨rfl, rfl, rfl⟩ := Unsettled.mk.inj counts
      obtain ⟨l, here, same⟩ := Option.map_eq_some_iff.mp (made limited)
      have exact := counted.exact c.connId c.channel l here
      have less : l.2 < l.1 := (room l here).resolve_left fun zero => limited (by rw [← same, zero])
      have less' := UInt16.lt_iff_toNat_lt.mp less
      have bound := out.under_le_onChannel c.connId c.channel prefetch
      rw [same] at less'
      unfold Deliveries.under at bound
      omega
    · exact counted.within connId channel p limited
  · intro other
    have same := (fewerConsumers_hold v queue name m c.connId).active other
    exact (same.map _).nodup (counted.distinct other)

theorem counted_round {r : Request} {queue : String} {answers : List Bool} {now : Instant}
    (op : r.op = .deliverRound queue answers now) {frames : List Frame} {w : DeliveryView}
    (counted : Counted o.broker.view o.outstanding)
    (turns : Run.Emits (Turn env (o.Counts r.op) queue
      (o.broker.view.queue queue).activeConsumers) o.broker.view frames w) :
    Counted w (frames.foldl (Deliveries.note o.broker r) o.outstanding) := by
  have general := turns.invariant (fun (out : Deliveries) v => Counted v out ∧
    ∀ c h, (v.limits c h).map Prod.fst = (o.broker.view.limits c h).map Prod.fst)
    (Deliveries.note o.broker r) ?_ o.outstanding ⟨counted, fun _ _ => rfl⟩
  · exact general.1
  rintro out v frames w turn ⟨counted', prefetches⟩
  cases turn with
  | idle => exact ⟨counted', prefetches⟩
  | unacked _ c m listed noAck =>
    have absent : (⟨c.tag, c.connId, c.channel, false⟩ : Consumer) ∉
        o.broker.consumersOf queue := by
      intro member
      rw [← view_consumers] at member
      have same := List.inj_on_of_nodup_map (counted.distinct queue) listed member rfl
      rw [same] at noAck
      cases noAck
    have still : [Frame.basicDeliver c.connId c.channel c.tag m].foldl
        (Deliveries.note o.broker r) out = out := by
      simp [Deliveries.note, op, absent]
    rw [still]
    exact ⟨counted', prefetches⟩
  | held t c m listed acks front turn room counts =>
    rw [view_consumers] at listed
    have here : (⟨c.tag, c.connId, c.channel, false⟩ : Consumer) ∈ o.broker.consumersOf queue := by
      rw [← acks]
      exact listed
    have noted : [Frame.basicDeliver c.connId c.channel c.tag m].foldl
        (Deliveries.note o.broker r) out = out.insert (queue, m.id)
          ⟨c.connId, c.channel, o.broker.prefetchOf c.connId c.channel⟩ := by
      simp [Deliveries.note, op, here]
    rw [noted]
    obtain ⟨-, fresh, below⟩ := counts
    obtain ⟨q, qm, found, popped, resolved⟩ := front
    constructor
    · refine counted_hold counted' ?_ room ?_ ?_
      · rw [view_inflight, QueueMessage.resolve_id resolved]
        exact fresh q found qm popped
      · intro l present
        obtain ⟨ch, present', rfl⟩ := channel_of_limits present
        exact below c turn ch present'
      · intro limited
        rw [prefetches]
        exact prefetch_eq limited rfl
    · intro connId channel
      rw [← prefetches]
      simp only [DeliveryView.count]
      split
      · rw [Option.map_map]
        rfl
      · rfl

theorem Counted.unmoved {v w : DeliveryView} {out : Deliveries} (counted : Counted v out)
    (distinct : ∀ name, ((w.queue name).activeConsumers.map Consumer.tag).Nodup)
    (carries : w.Carries v) (same : ∀ queue, (w.queue queue).inflight = (v.queue queue).inflight) :
    Counted w (out.inView w) :=
  counted_steady counted distinct carries (counted.steady fun queue tag held => by
    rw [same]
    exact held)

theorem carries_refl (v : DeliveryView) : v.Carries v := fun _ _ l here => ⟨l, here, rfl⟩

theorem counted_fetch {r : Request} {connId : UInt64} {queue : String} {noAck : Bool}
    (op : r.op = .basicGet connId queue noAck) {frames : List Frame} {w : DeliveryView}
    (counted : Counted o.broker.view o.outstanding)
    (fetch : Fetch env (o.Counts r.op) connId queue noAck o.broker frames w) :
    Counted w
      ((frames.foldl (Deliveries.note o.broker r) o.outstanding : Deliveries).inView w) := by
  have still := counted.unmoved counted.distinct (carries_refl _) fun _ => rfl
  cases fetch with
  | failed code text classId methodId =>
    have unnoted : (closeFrames code text classId methodId).foldl (Deliveries.note o.broker r)
        o.outstanding = o.outstanding := by
      unfold closeFrames
      split <;> simp [Deliveries.note, op]
    rw [unnoted]
    exact still
  | empty =>
    simp only [List.foldl_cons, List.foldl_nil, Deliveries.note, op]
    exact still
  | unacked m count acks =>
    simp only [List.foldl_cons, List.foldl_nil, Deliveries.note, op, acks]
    exact still
  | held m count acks front counts =>
    have round := counts.1
    rw [op] at round
    cases round

theorem outstanding_step_eq (o : Observed) (r : Request) :
    (o.step env r).outstanding = Deliveries.inView
      ((answer env o.broker r.op).foldl (Deliveries.note o.broker r) o.outstanding)
      (served env o.broker r.op).view := by
  have same : (fun (k : String × UInt64) (_ : Unsettled) =>
      (((served env o.broker r.op).view.queue k.1).inflight k.2).isSome) =
      fun k _ => (served env o.broker r.op).inFlight k.1 k.2 :=
    funext fun k => funext fun _ => view_inflight _ k.1 k.2
  unfold Deliveries.inView
  rw [same]
  rfl

theorem Observed.Settled.counted {op : Op} {connId tag : UInt64} {channel : UInt16}
    (settled : o.Settled op) (settles : op.settles? = some (connId, channel, tag))
    (covered : o.Covered) (counted : Counted o.broker.view o.outstanding) :
    Counted ((o.broker.view.spend connId channel).settle connId tag)
      (o.outstanding.inView ((o.broker.view.spend connId channel).settle connId tag)) := by
  have own : o.SettlesCounted connId channel tag := by
    cases op <;> cases settles <;> exact settled
  unfold Observed.SettlesCounted at own
  rw [known_of_view] at own
  cases known : o.broker.view.known tag with
  | none =>
    rw [known] at own
    refine counted.settles known fun l here => ?_
    obtain ⟨ch, present, rfl⟩ := channel_of_limits here
    exact own ch present
  | some queue =>
    rw [known] at own
    refine counted_settle_known counted known (fun held => ?_) own
    rw [view_inflight] at held
    exact covered queue tag held

theorem counted_step {r : Request} (step : o.CountedStep env r) (covered : o.Covered)
    (counted : Counted o.broker.view o.outstanding) :
    Counted (o.step env r).broker.view (o.step env r).outstanding := by
  have serves := serves r.op step.counts
  have settled := step.settled
  have distinct := serves.distinct counted.distinct
  change Counted (served env o.broker r.op).view _
  rw [outstanding_step_eq]
  generalize (served env o.broker r.op).view = w at serves distinct
  generalize answer env o.broker r.op = frames at serves
  have silent (silent : r.op.delivers = false)
      (kept : Counted w (o.outstanding.inView w)) :
      Counted w
        ((frames.foldl (Deliveries.note o.broker r) o.outstanding : Deliveries).inView w) := by
    rw [Deliveries.foldl_note_silent silent]
    exact kept
  generalize asked : r.op = op at serves settled
  cases serves with
  | quiet frames quiet =>
    exact silent (asked ▸ silent_of_quiet quiet)
      (counted.unmoved distinct (carries_refl _) fun _ => rfl)
  | connect | closed | channelClose =>
    refine silent (asked ▸ rfl) (counted.unmoved distinct (fun c h l here => ?_) fun _ => rfl)
    simp only [DeliveryView.closeConnection, DeliveryView.closeChannel] at here
    split at here
    · cases here
    · exact ⟨l, here, rfl⟩
  | unknown | reopened | aborted =>
    exact silent (asked ▸ rfl) (counted.unmoved distinct (carries_refl _) fun _ => rfl)
  | opened connId channel closed =>
    refine silent (asked ▸ rfl) (counted_inView counted distinct fun c h l here => ?_)
    have kept : (o.outstanding.inView (o.broker.view.openChannel connId channel)).onChannel c h =
        o.outstanding.onChannel c h := by
      refine Deliveries.onChannel_congr fun k d _ _ => ?_
      rw [inView_eq_some]
      exact ⟨And.left, fun found => ⟨found, counted.sound k.1 k.2 (by rw [found]; rfl)⟩⟩
    rw [kept]
    simp only [DeliveryView.openChannel] at here
    split at here
    · rename_i same
      obtain rfl := Option.some.inj here
      have nothing := settled (Option.map_eq_none_iff.mp closed)
      rw [same.1, same.2, nothing]
      rfl
    · exact counted.exact c h l here
  | limited connId channel prefetchCount globally =>
    refine silent (asked ▸ rfl) (counted.unmoved distinct (fun c h l here => ?_) fun _ => rfl)
    simp only [DeliveryView.limit] at here
    split at here
    · obtain ⟨l', before, rfl⟩ := Option.map_eq_some_iff.mp here
      exact ⟨l', before, rfl⟩
    · exact ⟨l, here, rfl⟩
  | disconnect connId first rest =>
    exact silent (asked ▸ rfl) (counted_disconnect counted settled distinct first rest)
  | dropped frames drops gone =>
    obtain ⟨limits, steady⟩ := gone.steady (counted.steady fun _ _ held => held)
    refine silent (asked ▸ silent_of_drops drops) (counted_steady counted distinct ?_ steady)
    intro c h l here
    rw [limits] at here
    exact ⟨l, here, rfl⟩
  | consumed connId channel args subscribe =>
    refine silent (asked ▸ rfl) ?_
    cases subscribe with
    | failed => exact counted.unmoved distinct (carries_refl _) fun _ => rfl
    | added =>
      refine counted.unmoved distinct (fun c h l here => ⟨l, here, rfl⟩) fun queue => ?_
      simp only [DeliveryView.consume, Function.update_apply]
      split
      · rename_i here
        rw [here]
      · rfl
  | settled connId channel tag settles =>
    exact silent (asked ▸ silent_of_settles settles) (settled.counted settles covered counted)
  | committed connId =>
    refine silent (asked ▸ rfl) ?_
    have none : o.broker.bufferedAcks connId = [] := settled
    rw [none]
    exact counted.unmoved counted.distinct (carries_refl _) fun _ => rfl
  | fetched connId queue noAck fetch =>
    rw [← asked] at fetch
    exact counted_fetch asked counted fetch
  | delivered queue answers now turns =>
    rw [← asked] at turns
    have after := counted_round asked counted turns
    exact after.unmoved after.distinct (carries_refl _) fun _ => rfl
  | restarted =>
    refine silent (asked ▸ rfl) (counted_inView counted distinct fun c h l here => ?_)
    cases here

theorem Counted.observed (counted : Counted o.broker.view o.outstanding) : o.Exact where
  counted connId channel _ here := counted.exact connId channel _ (limits_of_channel here)
  limited connId channel _ _ positive := counted.within connId channel _ positive

end

/-- In a run whose steps are all counted, every state has exact counts. -/
theorem counts_exact (env : Env) (auth : AuthBackend) (cluster : Option ClusterCoordinator)
    (rs : List Request)
    (counted : Run.Along (Observed.step env) (Observed.CountedStep env)
      (Observed.start env auth cluster) rs)
    (before after : List Request) (split : rs = before ++ after) :
    (Observed.after env auth cluster before).Exact := by
  rw [split, Run.along_append] at counted
  have start : (Observed.start env auth cluster).Covered ∧
      Counted (Observed.start env auth cluster).broker.view
        (Observed.start env auth cluster).outstanding := by
    refine ⟨fun _ _ held => (by cases held), ?_, ?_, ?_, ?_⟩
    · exact fun _ _ present => by cases present
    · exact fun _ _ _ present => by cases present
    · exact fun _ _ _ _ => Nat.zero_le _
    · exact fun _ => List.nodup_nil
  have last := Run.invariant
    (fun _ (o : Observed) => o.Covered ∧ Counted o.broker.view o.outstanding) start
    (fun _ o r step h => ⟨Observed.covered_step h.1 r, counted_step step h.1 h.2⟩) counted.1
  exact last.2.observed

def firstOfTwo : List Op := session "q" ++
  [publishTo "q" false [1], publishTo "q" false [2], .basicQos 1 1 1 false,
    .basicConsume 1 1 ⟨"q", "t", false, false, false, []⟩, .deliverRound "q" [true, true] 0]

def bothInTurn : List Request :=
  Request.onFirstChannel (firstOfTwo ++ [.basicAck 1 1 1, .deliverRound "q" [true, true] 0])

theorem counts_exact_in_turn :
    (Observed.after (plainEnv 64 1) guestOnly none bothInTurn).Exact :=
  counts_exact (plainEnv 64 1) guestOnly none bothInTurn (by decide +kernel) bothInTurn [] (by rfl)

/-- It acknowledges a tag that it never got, and gets the other one as well. -/
def bothAtOnce : List Request :=
  Request.onFirstChannel (firstOfTwo ++ [.basicAck 1 1 999, .deliverRound "q" [true, true] 0])

theorem unknown_tag_miscounts :
    ¬ (Observed.after (plainEnv 64 1) guestOnly none bothAtOnce).Exact := by
  intro exact
  have here : (Observed.after (plainEnv 64 1) guestOnly none bothAtOnce).broker.channel? 1 1 =
      some { ChannelState.new with prefetchCount := 1, unackedCount := 1 } := by decide +kernel
  have two : (Observed.after (plainEnv 64 1) guestOnly none bothAtOnce).outstanding.under 1 1 1 =
      2 := by decide +kernel
  have limited := exact.limited 1 1 _ here (by decide)
  have bound := Nat.le_trans (Nat.le_of_eq two.symm) limited
  exact absurd bound (by decide)

end RocketmqBroker
