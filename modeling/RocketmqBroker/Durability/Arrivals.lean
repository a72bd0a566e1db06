import RocketmqBroker.Durability.Held

/-!
How a message comes to be where it is. A queue gets its messages from publishers, from other
members of the cluster and from recovery, and it gets them back from its own front and from
its consumers. In flight are messages that were at the front.
-/
namespace RocketmqBroker

def pushedBy (env : Env) (s : BrokerState) (queue : String) (ctx : EnqueueCtx) (now : Instant) :
    Option QueueMessage :=
  (s.queues.get? queue).map fun q =>
    buildQueueMessage s.nextMsgId (capPriority ctx.priority q.options.maxPriority)
      (resolveTtl q.options.messageTtl ctx.perMsgTtl now)
      (persistIfDurable env s.wal q queue s.nextMsgId ctx) ctx

def QueueState.Front (env : Env) (wal : SegmentCoordinator) (q : QueueState) (qm : QueueMessage)
    (m : Message) : Prop :=
  q.messages.popFront.map Prod.fst = some qm ∧ qm.resolve env.crc32 wal = .ok m

def Message.back (counted : Bool) (m : Message) : Message :=
  if counted then { m with redelivered := true, deliveryCount := m.deliveryCount + 1 } else m

inductive Effect.Adds (env : Env) (s : BrokerState) (name : String) : Effect → QueueMessage → Prop
  | enqueue {ctx : EnqueueCtx} {now : Instant} {qm : QueueMessage} :
      pushedBy env s name ctx now = some qm → Adds env s name (.enqueue name ctx now) qm
  | enqueueFull {exchange routingKey : String} {headers body : Bytes} :
      s.queues.contains name = true → Adds env s name
        (.enqueueFull name exchange routingKey headers body)
        (.full (.newRouted s.nextMsgId headers body exchange routingKey))
  | pushFull {m : Message} :
      s.queues.contains name = true → Adds env s name (.pushFull name m) (.full m)
  | replicated {msgId : UInt64} {body : Bytes} :
      s.queues.contains name = true → Adds env s name (.replicatePublish name msgId body)
        (.full (.newRouted msgId [] body "" ""))
  | rotated {fate : Fate} {q : QueueState} {qm : QueueMessage} {m : Message} :
      s.queues.get? name = some q → q.Front env s.wal qm m → fate = .front ∨ fate = .back →
        Adds env s name (.pop name fate) (.full m)
  | requeued {tag : UInt64} {counted : Bool} {q : QueueState} {m : Message} :
      s.queues.get? name = some q → q.inflight.get? tag = some m →
        Adds env s name (.requeue name tag counted) (.full (m.back counted))
  | restored {now : Instant} {auth : AuthBackend} {cluster : Option ClusterCoordinator}
      {q : QueueState} {qm : QueueMessage} :
      (RocketmqBroker.restart env now s.wal.dir auth cluster).queues.get? name = some q →
        qm ∈ q.messages.contents → Adds env s name (.restart now auth cluster) qm

section
variable {env : Env} {s : BrokerState} {name : String} {q q' : QueueState} {qm : QueueMessage}

theorem contents_popTo {wal : SegmentCoordinator} {fate : Fate}
    (member : qm ∈ (q.popTo env wal fate).messages.contents) :
    qm ∈ q.messages.contents ∨ (fate = .front ∨ fate = .back) ∧
      ∃ first m, q.Front env wal first m ∧ qm = .full m := by
  unfold QueueState.popTo at member
  cases popped : q.messages.popFront with
  | none =>
    rw [popped] at member
    exact .inl member
  | some front =>
    obtain ⟨first, rest⟩ := front
    rw [PriorityQueue.contents_popFront popped]
    rw [popped] at member
    dsimp only at member
    cases resolved : first.resolve env.crc32 wal with
    | error err =>
      rw [resolved] at member
      cases fate <;> exact .inl (Multiset.mem_cons_of_mem member)
    | ok m =>
      rw [resolved] at member
      have front : q.Front env wal first m := ⟨by rw [popped]; rfl, resolved⟩
      cases fate with
      | drop => exact .inl (Multiset.mem_cons_of_mem member)
      | hold => exact .inl (Multiset.mem_cons_of_mem member)
      | front =>
        dsimp only at member
        rw [PriorityQueue.contents_pushFront, Multiset.mem_cons] at member
        cases member with
        | inl new => exact .inr ⟨.inl rfl, first, m, front, new⟩
        | inr old => exact .inl (Multiset.mem_cons_of_mem old)
      | back =>
        dsimp only at member
        rw [PriorityQueue.contents_pushBack, Multiset.mem_cons] at member
        cases member with
        | inl new => exact .inr ⟨.inr rfl, first, m, front, new⟩
        | inr old => exact .inl (Multiset.mem_cons_of_mem old)

theorem QueueState.Front.mem {wal : SegmentCoordinator} {m : Message}
    (front : q.Front env wal qm m) : qm ∈ q.messages.contents := by
  obtain ⟨⟨first, rest⟩, popped, rfl⟩ := Option.map_eq_some_iff.mp front.1
  rw [PriorityQueue.contents_popFront popped]
  exact Multiset.mem_cons_self _ _

theorem contents_dropOldest (member : qm ∈ q.dropOldest.messages.contents) :
    qm ∈ q.messages.contents := by
  unfold QueueState.dropOldest at member
  split at member
  · exact member
  · rename_i m rest popped
    rw [PriorityQueue.contents_popOldest popped]
    exact Multiset.mem_cons_of_mem member

theorem contents_putBack {tag : UInt64} {counted : Bool}
    (member : qm ∈ (q.putBack tag counted).messages.contents) :
    qm ∈ q.messages.contents ∨
      ∃ m, q.inflight.get? tag = some m ∧ qm = .full (m.back counted) := by
  unfold QueueState.putBack at member
  split at member
  · exact .inl member
  · rename_i m found
    dsimp only at member
    rw [PriorityQueue.contents_pushFront, Multiset.mem_cons] at member
    exact member.symm.imp_right fun new => ⟨m, found, new⟩

theorem arrives_modifyQueue {e : Effect} {queue : String} {f : QueueState → QueueState}
    (moves : ∀ q, s.queues.get? queue = some q → qm ∈ (f q).messages.contents →
      qm ∈ q.messages.contents ∨ e.Adds env s queue qm)
    (found : (s.modifyQueue queue f).queues.get? name = some q')
    (member : qm ∈ q'.messages.contents) :
    (∃ q, s.queues.get? name = some q ∧ qm ∈ q.messages.contents) ∨ e.Adds env s name qm := by
  rw [get?_modifyQueue] at found
  split at found
  · rename_i same
    subst same
    obtain ⟨q, present, rfl⟩ := Option.map_eq_some_iff.mp found
    exact (moves q present member).imp_left fun old => ⟨q, present, old⟩
  · exact .inl ⟨q', found, member⟩

theorem arrives_exec {e : Effect} (found : (exec env s e).queues.get? name = some q')
    (member : qm ∈ q'.messages.contents) :
    (∃ q, s.queues.get? name = some q ∧ qm ∈ q.messages.contents) ∨ e.Adds env s name qm := by
  rw [(exec_memory env s e).1] at found
  have pushed {m : QueueMessage} {queue : String}
      (adds : s.queues.contains queue = true → e.Adds env s queue m) (q : QueueState)
      (present : s.queues.get? queue = some q)
      (inside : qm ∈ (q.messages.pushBack m).contents) :
      qm ∈ q.messages.contents ∨ e.Adds env s queue qm := by
    rw [PriorityQueue.contents_pushBack, Multiset.mem_cons] at inside
    refine inside.symm.imp_right fun new => ?_
    rw [new]
    exact adds (Option.isSome_iff_exists.mpr ⟨q, present⟩)
  cases e with
  | books change =>
    rw [Effect.inMemory, change.queues] at found
    exact .inl ⟨q', found, member⟩
  | tune queue change =>
    refine arrives_modifyQueue (fun q _ old => .inl ?_) found member
    rwa [change.messages] at old
  | tuneAll change =>
    rw [Effect.inMemory, FinMap.get?_mapVals] at found
    obtain ⟨q, present, rfl⟩ := Option.map_eq_some_iff.mp found
    rw [change.messages] at member
    exact .inl ⟨q, present, member⟩
  | createQueue queue new logs schema =>
    rw [createQueue_queues, FinMap.get?_orInsert] at found
    split at found
    · rename_i same
      cases old : s.queues.get? queue with
      | some q =>
        rw [old] at found
        cases found
        exact .inl ⟨q, same ▸ old, member⟩
      | none =>
        rw [old] at found
        cases found
        rw [Option.getD_none, new.messages] at member
        contradiction
    · exact .inl ⟨q', found, member⟩
  | removeQueue queue =>
    rw [Effect.inMemory, FinMap.get?_erase] at found
    split at found
    · contradiction
    · exact .inl ⟨q', found, member⟩
  | enqueue queue ctx now =>
    refine arrives_modifyQueue (fun q present inside => ?_) found member
    refine pushed (fun _ => .enqueue ?_) q present inside
    rw [pushedBy, show s.queues.get? queue = some q from present]
    rfl
  | enqueueFull queue exchange routingKey headers body =>
    exact arrives_modifyQueue (pushed .enqueueFull) found member
  | pushFull queue m => exact arrives_modifyQueue (pushed .pushFull) found member
  | replicatePublish queue msgId body =>
    exact arrives_modifyQueue (pushed .replicated) found member
  | replicateAck queue msgId =>
    refine arrives_modifyQueue (fun q _ old => .inl ?_) found member
    rw [contents_withoutId] at old
    exact (Multiset.mem_filter.mp old).1
  | pop queue fate =>
    refine arrives_modifyQueue (fun q present inside => ?_) found member
    refine (contents_popTo inside).imp_right ?_
    rintro ⟨fated, first, m, front, rfl⟩
    exact .rotated present front fated
  | popOldest queue =>
    exact arrives_modifyQueue (fun q _ old => .inl (contents_dropOldest old)) found member
  | purge queue =>
    refine arrives_modifyQueue (fun q _ old => ?_) found member
    contradiction
  | settle queue tag | discard queue tag =>
    refine arrives_modifyQueue (fun _ _ old => .inl ?_) found member
    exact old
  | requeue queue tag counted =>
    refine arrives_modifyQueue (fun q present inside => ?_) found member
    refine (contents_putBack inside).imp_right ?_
    rintro ⟨m, held, rfl⟩
    exact .requeued present held
  | restart now auth cluster => exact .inr (.restored found member)
  | alloc | createExchange | removeExchange | bind | appendBinding | unbind | compact =>
    exact .inl ⟨q', found, member⟩

theorem mem_restart {now : Instant} {auth : AuthBackend} {cluster : Option ClusterCoordinator}
    (found : (restart env now s.wal.dir auth cluster).queues.get? name = some q)
    (member : qm ∈ q.messages.contents) : ∃ msgId exchange routingKey headers body,
      LogRecord.enqueue name msgId exchange routingKey headers body ∈ recordsFound env s ∧
        qm = .full (recoveredMessage msgId exchange routingKey headers body) := by
  have ready := readyAt_found env s now auth cluster name
  rw [found] at ready
  split at ready
  · have messages : q.messages.ready =
        (restoredMessages (recordsFound env s) name).map .full := Option.some.inj ready
    rw [PriorityQueue.contents_eq_ready, messages, Multiset.mem_coe] at member
    obtain ⟨m, restored, rfl⟩ := List.mem_map.mp member
    obtain ⟨r, kept, built⟩ := List.mem_filterMap.mp restored
    have logged := (List.dropWhile_sublist _).subset kept
    cases r with
    | enqueue queue msgId exchange routingKey headers body =>
      simp only [LogRecord.restored] at built
      split at built
      · rename_i here
        cases built
        rw [here.2]
        exact ⟨msgId, exchange, routingKey, headers, body, logged, rfl⟩
      · contradiction
    | _ => contradiction
  · contradiction

theorem inflight_popTo {wal : SegmentCoordinator} {fate : Fate} {tag : UInt64} {m : Message}
    (held : (q.popTo env wal fate).inflight.get? tag = some m) :
    q.inflight.get? tag = some m ∨ fate = .hold ∧ ∃ first, q.Front env wal first m := by
  unfold QueueState.popTo at held
  cases popped : q.messages.popFront with
  | none =>
    rw [popped] at held
    exact .inl held
  | some front =>
    obtain ⟨first, rest⟩ := front
    rw [popped] at held
    dsimp only at held
    cases resolved : first.resolve env.crc32 wal with
    | error err =>
      rw [resolved] at held
      cases fate <;> exact .inl held
    | ok read =>
      rw [resolved] at held
      cases fate with
      | drop | front | back => exact .inl held
      | hold =>
        dsimp only at held
        rw [FinMap.get?_insert] at held
        split at held
        · cases held
          exact .inr ⟨rfl, first, by rw [popped]; rfl, resolved⟩
        · exact .inl held

theorem inflight_release {gone tag : UInt64} {m : Message}
    (held : (q.release gone).inflight.get? tag = some m) : q.inflight.get? tag = some m := by
  unfold QueueState.release at held
  dsimp only at held
  rw [FinMap.get?_erase] at held
  split at held
  · contradiction
  · exact held

theorem inflight_putBack {gone tag : UInt64} {counted : Bool} {m : Message}
    (held : (q.putBack gone counted).inflight.get? tag = some m) :
    q.inflight.get? tag = some m := by
  unfold QueueState.putBack at held
  split at held
  · exact held
  · exact inflight_release held

theorem inflight_dropOldest : q.dropOldest.inflight = q.inflight := by
  unfold QueueState.dropOldest
  split <;> rfl

theorem stays_modifyQueue {tag : UInt64} {m : Message} {queue : String}
    {f : QueueState → QueueState}
    (stays : ∀ q, (f q).inflight.get? tag = some m → q.inflight.get? tag = some m)
    (found : (s.modifyQueue queue f).queues.get? name = some q')
    (held : q'.inflight.get? tag = some m) :
    ∃ q, s.queues.get? name = some q ∧ q.inflight.get? tag = some m := by
  rw [get?_modifyQueue] at found
  split at found
  · obtain ⟨q, present, rfl⟩ := Option.map_eq_some_iff.mp found
    exact ⟨q, present, stays q held⟩
  · exact ⟨q', found, held⟩

theorem inflight_exec {e : Effect} {tag : UInt64} {m : Message}
    (found : (exec env s e).queues.get? name = some q') (held : q'.inflight.get? tag = some m) :
    (∃ q, s.queues.get? name = some q ∧ q.inflight.get? tag = some m) ∨
      e = .pop name .hold ∧ ∃ q first, s.queues.get? name = some q ∧ q.Front env s.wal first m := by
  rw [(exec_memory env s e).1] at found
  cases e with
  | books change =>
    rw [Effect.inMemory, change.queues] at found
    exact .inl ⟨q', found, held⟩
  | tune queue change =>
    refine .inl (stays_modifyQueue (fun q old => ?_) found held)
    rwa [change.inflight] at old
  | tuneAll change =>
    rw [Effect.inMemory, FinMap.get?_mapVals] at found
    obtain ⟨q, present, rfl⟩ := Option.map_eq_some_iff.mp found
    rw [change.inflight] at held
    exact .inl ⟨q, present, held⟩
  | createQueue queue new logs schema =>
    rw [createQueue_queues, FinMap.get?_orInsert] at found
    split at found
    · rename_i same
      cases old : s.queues.get? queue with
      | some q =>
        rw [old] at found
        cases found
        exact .inl ⟨q, same ▸ old, held⟩
      | none =>
        rw [old] at found
        cases found
        rw [Option.getD_none, new.inflight] at held
        contradiction
    · exact .inl ⟨q', found, held⟩
  | removeQueue queue =>
    rw [Effect.inMemory, FinMap.get?_erase] at found
    split at found
    · contradiction
    · exact .inl ⟨q', found, held⟩
  | pop queue fate =>
    rw [Effect.inMemory, get?_modifyQueue] at found
    split at found
    · rename_i same
      obtain ⟨q, present, rfl⟩ := Option.map_eq_some_iff.mp found
      refine (inflight_popTo held).imp (fun old => ⟨q, present, old⟩) ?_
      rintro ⟨rfl, first, front⟩
      exact ⟨by rw [same], q, first, present, front⟩
    · exact .inl ⟨q', found, held⟩
  | popOldest queue =>
    refine .inl (stays_modifyQueue (fun q old => ?_) found held)
    rwa [inflight_dropOldest] at old
  | settle queue gone | discard queue gone =>
    exact .inl (stays_modifyQueue (fun q => inflight_release) found held)
  | requeue queue gone counted =>
    exact .inl (stays_modifyQueue (fun q => inflight_putBack) found held)
  | restart now auth cluster =>
    rw [restart_inflight now auth cluster found] at held
    contradiction
  | enqueue | enqueueFull | pushFull | replicatePublish | replicateAck | purge =>
    refine .inl (stays_modifyQueue (fun q old => ?_) found held)
    exact old
  | alloc | createExchange | removeExchange | bind | appendBinding | unbind | compact =>
    exact .inl ⟨q', found, held⟩

end

end RocketmqBroker
