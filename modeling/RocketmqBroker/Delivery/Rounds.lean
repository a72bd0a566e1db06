import RocketmqBroker.Delivery.Requests

/-!
What one turn of a delivery round does to the registries: nothing, or one message
goes in flight with the consumer whose turn it is. A round is a chain of turns.
-/
namespace RocketmqBroker
open Run.Program

namespace DeliveryView

def take (v : DeliveryView) (queue : String) (m : Message) : DeliveryView :=
  { v with queue := Function.update v.queue queue { v.queue queue with
      inflight := Function.update (v.queue queue).inflight m.id (some m) } }

def track (v : DeliveryView) (connId : UInt64) (name : String) (tag : UInt64) : DeliveryView :=
  { v with
    deliveryIndex := Function.update v.deliveryIndex tag (some name)
    connDeliveries := Function.update v.connDeliveries connId
      (v.connDeliveries connId ++ [(name, tag)]) }

/-- A message goes in flight in a queue and is tracked for a connection, under the
    name the tracking code has for the queue. -/
def hold (v : DeliveryView) (queue name : String) (m : Message) (connId : UInt64) :
    DeliveryView := (v.take queue m).track connId name m.id

/-- One more unacked delivery, when the channel is open. -/
def count (v : DeliveryView) (connId : UInt64) (channel : UInt16) : DeliveryView :=
  { v with limits := fun c h =>
      if c = connId ∧ h = channel then (v.limits c h).map fun l => (l.1, l.2 + 1)
      else v.limits c h }

def Room (v : DeliveryView) (connId : UInt64) (channel : UInt16) : Prop :=
  ∀ l ∈ v.limits connId channel, l.1 = 0 ∨ l.2 < l.1

end DeliveryView

def BrokerState.Fronts (env : Env) (s : BrokerState) (queue : String) (m : Message) : Prop :=
  ∃ q front, s.queues.get? queue = some q ∧ q.messages.popFront = some front ∧
    front.1.resolve env.crc32 s.wal = .ok m

def BrokerState.onTurn (s : BrokerState) (queue : String) : Option Consumer := do
  let q ← s.queues.get? queue
  q.activeConsumers[(q.nextListener - 1) % q.activeConsumers.length]?

/-- One turn of a round over a snapshot of consumers: `allowed` holds of the step
    that takes the message from the queue. -/
inductive Turn (env : Env) (allowed : BrokerState → Effect → Prop) (queue : String)
    (consumers : List Consumer) : DeliveryView → List Frame → DeliveryView → Prop
  | idle (v : DeliveryView) : Turn env allowed queue consumers v [] v
  | unacked (v : DeliveryView) (c : Consumer) (m : Message) : c ∈ consumers → c.noAck = true →
      Turn env allowed queue consumers v [.basicDeliver c.connId c.channel c.tag m] v
  | held (s : BrokerState) (c : Consumer) (m : Message) : c ∈ consumers → c.noAck = false →
      s.Fronts env queue m → s.onTurn queue = some c → s.view.Room c.connId c.channel →
      allowed s (.pop queue .hold) →
      Turn env allowed queue consumers s.view [.basicDeliver c.connId c.channel c.tag m]
        ((s.view.hold queue (s.view.queue queue).nameArc m c.connId).count c.connId c.channel)

section
variable {env : Env} {s : BrokerState}

theorem view_pop_hold {queue : String} {m : Message} (front : s.Fronts env queue m) :
    (exec env s (.pop queue .hold)).view = s.view.take queue m := by
  obtain ⟨q, ⟨qm, rest⟩, found, popped, resolved⟩ := front
  rw [view_inMemory]
  have queues : (s.modifyQueue queue (·.popTo env s.wal .hold)).queueView =
      Function.update s.queueView queue { s.queueView queue with
        inflight := Function.update (s.queueView queue).inflight m.id (some m) } := by
    funext name
    rw [queueView_modifyQueue, Function.update_apply]
    split
    · have moved : q.popTo env s.wal .hold =
          { q with messages := rest, inflight := q.inflight.insert m.id m } := by
        unfold QueueState.popTo
        simp only [popped, resolved]
      rw [BrokerState.queueView, found]
      simp only [Option.elim_some, moved]
      unfold QueueState.view
      congr 1
      funext tag
      rw [FinMap.get?_insert, Function.update_apply]
    · rfl
  change BrokerState.view (s.modifyQueue queue (·.popTo env s.wal .hold)) = _
  unfold BrokerState.view
  rw [queues]
  rfl

theorem view_modifyChannel_count (s : BrokerState) (connId : UInt64) (channel : UInt16) :
    (s.modifyChannel connId channel fun ch =>
      { ch with unackedCount := ch.unackedCount + 1 }).view = s.view.count connId channel := by
  have limits : (s.modifyChannel connId channel fun ch =>
      { ch with unackedCount := ch.unackedCount + 1 }).limits =
        (s.view.count connId channel).limits := by
    funext c h
    unfold BrokerState.limits
    rw [channel?_modifyChannel]
    simp only [DeliveryView.count, BrokerState.view, BrokerState.limits]
    split
    · rename_i same
      obtain ⟨rfl, rfl⟩ := same
      cases s.channel? c h <;> rfl
    · rfl
  unfold BrokerState.view
  rw [limits]
  rfl

theorem view_trackDelivery (s : BrokerState) (connId : UInt64) (name : String) (tag : UInt64) :
    ((trackDelivery connId name tag : Act env Unit).final s).view =
      s.view.track connId name tag := by
  change BrokerState.view { s with
    deliveryIndex := s.deliveryIndex.insert tag name
    connDeliveries := s.connDeliveries.insert connId
      ((s.connDeliveries.get? connId).getD [] ++ [(name, tag)]) } = _
  unfold BrokerState.view DeliveryView.track
  congr 1
  · funext t
    rw [FinMap.get?_insert, Function.update_apply]
  · funext c
    rw [FinMap.get?_insert, Function.update_apply]
    split <;> rfl

theorem view_trackInflight {queue : String} {m : Message} (front : s.Fronts env queue m)
    (c : Consumer) (now : Instant) :
    ((trackInflight queue c m.id now : Act env Unit).final s).view =
      (s.view.hold queue (s.view.queue queue).nameArc m c.connId).count c.connId c.channel := by
  have popped := view_pop_hold front
  obtain ⟨q, _, found, _⟩ := front
  have named : (((exec env s (.pop queue .hold)).queues.get? queue).map (·.nameArc)).getD "" =
      (s.view.queue queue).nameArc := by
    have same := congrArg (fun v => (v.queue queue).nameArc) popped
    dsimp only [DeliveryView.take] at same
    rw [Function.update_self] at same
    rw [← same]
    change _ = ((exec env s (.pop queue .hold)).queueView queue).nameArc
    have present : (exec env s (.pop queue .hold)).queues.get? queue =
        some (q.popTo env s.wal .hold) := by
      exact get?_modifyQueue_of found _
    rw [BrokerState.queueView, present]
    rfl
  unfold trackInflight
  rw [final_bind, final_bind, final_bind, final_bind]
  change (exec env (exec env _ (.tune queue _)) (.books _)).view = _
  rw [view_inMemory]
  refine (view_modifyChannel_count _ _ _).trans ?_
  rw [view_inMemory]
  change DeliveryView.count (BrokerState.view (BrokerState.modifyQueue _ queue _)) _ _ = _
  rw [view_modifyQueue fun _ => by rfl, view_trackDelivery]
  change DeliveryView.count ((exec env s (.pop queue .hold)).view.track _ _ _) _ _ = _
  rw [popped, ← named]
  rfl

theorem readyConsumer_picks {consumers : List Consumer} {pointer turns next : Nat} {c : Consumer}
    (picked : readyConsumer s consumers pointer turns = (next, some c)) :
    consumers[(next - 1) % consumers.length]? = some c ∧
      hasPrefetchCapacity s c.connId c.channel = true := by
  induction turns generalizing pointer with
  | zero => cases picked
  | succ turns ih =>
    unfold readyConsumer at picked
    split at picked
    · cases picked
    · rename_i c' here
      split at picked
      · rename_i room
        obtain ⟨rfl, same⟩ := Prod.mk.inj picked
        obtain rfl := Option.some.inj same
        exact ⟨here, room⟩
      · exact ih picked

theorem room_of_capacity {connId : UInt64} {channel : UInt16}
    (room : hasPrefetchCapacity s connId channel = true) : s.view.Room connId channel := by
  intro l found
  simp only [BrokerState.view, BrokerState.limits, BrokerState.channel?, Option.mem_def] at found
  unfold hasPrefetchCapacity at room
  cases conn : s.connState.get? connId with
  | none =>
    rw [conn] at found
    cases found
  | some cs =>
    rw [conn] at found room
    dsimp only at room
    cases present : cs.channels.get? channel with
    | none =>
      simp [present] at found
    | some ch =>
      simp only [Option.bind_eq_bind, Option.bind_some, present, Option.map_some,
        Option.some.injEq] at found
      rw [present] at room
      simp only [ChannelState.canDeliver, Bool.and_eq_true, Bool.or_eq_true, beq_iff_eq,
        decide_eq_true_eq] at room
      rw [← found]
      exact room.2

theorem view_point (s : BrokerState) (queue : String) (pointer : Nat) :
    (exec env s (.tune queue { apply := fun q => { q with nextListener := pointer } })).view =
      s.view := by
  rw [view_inMemory]
  exact view_modifyQueue fun _ => by rfl

variable {allowed : BrokerState → Effect → Prop}

structure Picked (s : BrokerState) (queue : String) (consumers : List Consumer)
    (qm : QueueMessage) (c : Consumer) (t : BrokerState) : Prop where
  still : t.view = s.view
  listed : c ∈ consumers
  turn : t.onTurn queue = some c
  room : t.view.Room c.connId c.channel
  front : ∃ q rest, t.queues.get? queue = some q ∧ q.messages.popFront = some (qm, rest)

theorem nextReadyConsumer_picks {queue : String} {q : QueueState} {qm : QueueMessage}
    (found : s.queues.get? queue = some q) (peeked : q.messages.peekFront = some qm) :
    Triple allowed (· = s) (nextReadyConsumer queue q.activeConsumers : Act env _)
      fun picked t => t.view = s.view ∧
        ∀ c ∈ picked, Picked s queue q.activeConsumers qm c t := by
  rintro t rfl -
  obtain ⟨⟨_, rest⟩, popped, rfl⟩ := Option.map_eq_some_iff.mp peeked
  have still : ((nextReadyConsumer queue q.activeConsumers : Act env _).final t).view = t.view :=
    view_point t queue _
  refine ⟨still, fun c picked => ?_⟩
  change (readyConsumer t q.activeConsumers
    (((t.queues.get? queue).map (·.nextListener)).getD 0) q.activeConsumers.length).2 = some c
    at picked
  obtain ⟨here, room⟩ := readyConsumer_picks (Prod.ext rfl picked)
  have moved : ((nextReadyConsumer queue q.activeConsumers : Act env _).final t).queues.get? queue
      = some { q with nextListener := (readyConsumer t q.activeConsumers
        (((t.queues.get? queue).map (·.nextListener)).getD 0) q.activeConsumers.length).1 } := by
    change (t.modifyQueue queue _).queues.get? queue = _
    rw [get?_modifyQueue, if_pos rfl]
    exact congrArg (Option.map _) found
  refine ⟨still, List.mem_of_getElem? here, ?_, ?_, _, rest, moved, popped⟩
  · unfold BrokerState.onTurn
    rw [moved]
    exact here
  · rw [still]
    exact room_of_capacity room

theorem deliverOne_turn {queue : String} {q : QueueState} (taken : Bool) (now : Instant)
    (found : s.queues.get? queue = some q) :
    Triple allowed (· = s) (deliverOne queue q.activeConsumers taken now : Act env _)
      fun r t => Turn env allowed queue q.activeConsumers s.view r.2.2 t.view := by
  unfold deliverOne
  refine Triple.bind (R := fun peeked t => peeked = q.messages.peekFront ∧ t = s)
    (triple_read ?_) fun peeked => ?_
  · rintro t rfl
    rw [found]
    exact ⟨rfl, rfl⟩
  cases peeked with
  | none =>
    refine triple_pure ?_
    rintro t ⟨-, rfl⟩
    exact .idle _
  | some qm =>
    dsimp only
    by_cases peeked : q.messages.peekFront = some qm
    case neg => exact fun t h => absurd h.1.symm peeked
    refine Triple.bind ((nextReadyConsumer_picks found peeked).weaken (fun t h => h.2)
      fun _ _ h => h) fun picked => ?_
    cases picked with
    | none =>
      refine triple_pure ?_
      rintro t ⟨still, -⟩
      rw [still]
      exact .idle _
    | some c =>
      dsimp only
      refine Triple.bind (R := fun resolved t => resolved = qm.resolve env.crc32 t.wal ∧
        Picked s queue q.activeConsumers qm c t) (triple_read ?_) fun resolved => ?_
      · rintro t ⟨-, picked⟩
        exact ⟨rfl, picked c rfl⟩
      cases resolved with
      | error err =>
        refine Triple.bind (R := fun _ t => t.view = s.view) (triple_perform ?_) fun _ => ?_
        · rintro t ⟨-, picked⟩ -
          exact (view_quiet rfl).trans picked.still
        · refine triple_pure fun t still => ?_
          rw [still]
          exact .idle _
      | ok m =>
        dsimp only
        refine Triple.bind (R := fun _ t => .ok m = qm.resolve env.crc32 t.wal ∧
          Picked s queue q.activeConsumers qm c t) (triple_read fun _ h => h) fun sent => ?_
        split
        · refine Triple.bind (R := fun _ t => t.view = s.view) (triple_perform ?_) fun _ => ?_
          · rintro t ⟨-, picked⟩ -
            exact (view_quiet rfl).trans picked.still
          · refine triple_pure fun t still => ?_
            rw [still]
            exact .idle _
        · cases acks : c.noAck with
          | true =>
            refine Triple.bind (R := fun _ t => t.view = s.view ∧ c ∈ q.activeConsumers)
              (triple_perform ?_) fun _ => ?_
            · rintro t ⟨-, picked⟩ -
              exact ⟨(view_quiet rfl).trans picked.still, picked.listed⟩
            · refine triple_pure fun t h => ?_
              rw [h.1]
              exact .unacked _ c m h.2 acks
          | false =>
            refine Triple.bind (R := fun _ t => Turn env allowed queue q.activeConsumers s.view
                [.basicDeliver c.connId c.channel c.tag m] t.view)
              ?_ fun _ => triple_pure fun _ h => h
            rintro t ⟨resolved, picked⟩ along
            obtain ⟨q', rest, here, popped⟩ := picked.front
            have front : t.Fronts env queue m := ⟨q', _, here, popped, resolved.symm⟩
            rw [view_trackInflight front, ← picked.still]
            exact .held t c m picked.listed acks front picked.turn picked.room along.1

theorem Turn.consumers {queue : String} {consumers : List Consumer} {v w : DeliveryView}
    {frames : List Frame} (turn : Turn env allowed queue consumers v frames w) (name : String) :
    (w.queue name).activeConsumers = (v.queue name).activeConsumers ∧
      (w.queue name).consumerTags = (v.queue name).consumerTags ∧
      (w.queue name).listeners = (v.queue name).listeners ∧
      (w.queue name).nameArc = (v.queue name).nameArc := by
  cases turn with
  | idle | unacked => exact ⟨rfl, rfl, rfl, rfl⟩
  | held t c m =>
    simp only [DeliveryView.count, DeliveryView.hold, DeliveryView.track, DeliveryView.take,
      Function.update_apply]
    split
    · rename_i same
      rw [same]
      exact ⟨rfl, rfl, rfl, rfl⟩
    · exact ⟨rfl, rfl, rfl, rfl⟩

theorem found_of_consumers {queue : String} {consumers : List Consumer}
    (snapshot : (s.view.queue queue).activeConsumers = consumers) (some : consumers ≠ []) :
    ∃ q, s.queues.get? queue = .some q ∧ q.activeConsumers = consumers := by
  cases found : s.queues.get? queue with
  | none =>
    simp only [BrokerState.view, BrokerState.queueView, found] at snapshot
    exact absurd snapshot.symm some
  | some q =>
    simp only [BrokerState.view, BrokerState.queueView, found] at snapshot
    exact ⟨q, rfl, snapshot⟩

theorem deliverQueue_turns {queue : String} {consumers : List Consumer} (some : consumers ≠ [])
    (now : Instant) (answers : List Bool) (delivered : Nat)
    (snapshot : (s.view.queue queue).activeConsumers = consumers) :
    Triple allowed (· = s) (deliverQueue queue consumers now answers delivered : Act env _)
      fun frames t => Run.Emits (Turn env allowed queue consumers) s.view frames t.view := by
  induction answers generalizing s delivered with
  | nil =>
    refine triple_pure ?_
    rintro t rfl
    exact .done _
  | cons taken answers ih =>
    obtain ⟨q, found, rfl⟩ := found_of_consumers snapshot some
    unfold deliverQueue
    refine Triple.bind (deliverOne_turn taken now found) fun r => ?_
    obtain ⟨goesOn, counts, frames⟩ := r
    dsimp only
    generalize (if counts = true then delivered + 1 else delivered) = delivered
    rintro t first along
    have still : (t.view.queue queue).activeConsumers = q.activeConsumers :=
      (first.consumers queue).1.trans snapshot
    split at along
    · rename_i more
      rw [if_pos more, result_bind, final_bind]
      rw [steps_bind, Run.along_append] at along
      exact .next first (ih _ still t rfl along.1)
    · rename_i stop
      rw [if_neg stop]
      have last := Run.Emits.next first (.done _)
      rw [List.append_nil] at last
      exact last

/-- A round is a chain of turns over the snapshot of the queue. -/
theorem deliverRound_turns (queue : String) (answers : List Bool) (now : Instant) :
    Triple allowed (· = s) (deliverRound queue answers now : Act env _)
      fun frames t => Run.Emits
        (Turn env allowed queue (s.view.queue queue).activeConsumers) s.view frames t.view := by
  unfold deliverRound
  refine Triple.bind (R := fun found t => found = s.queues.get? queue ∧ t = s)
    (triple_read ?_) fun found => ?_
  · rintro t rfl
    exact ⟨rfl, rfl⟩
  rintro t ⟨here, rfl⟩ along
  cases found with
  | none => exact .done _
  | some q =>
    have snapshot : (t.view.queue queue).activeConsumers = q.activeConsumers := by
      simp only [BrokerState.view, BrokerState.queueView, ← here]
      rfl
    rw [snapshot]
    dsimp only at along ⊢
    split at along
    · rename_i nothing
      rw [if_pos nothing]
      exact .done _
    · rename_i ready
      rw [if_neg ready]
      have some : q.activeConsumers ≠ [] := by
        intro empty
        simp [empty] at ready
      exact deliverQueue_turns some now answers 0 snapshot t rfl along

end
end RocketmqBroker
