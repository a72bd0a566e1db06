import RocketmqBroker.Durability.Arrivals
import RocketmqBroker.Server.Expiry

/-!
Queues without time limits. A message has its expiration from its sender or from its queue,
and nothing sets one later. Where neither of them does, the sweep takes nothing.
-/
namespace RocketmqBroker
open Run.Program

structure QueueState.Timeless (q : QueueState) : Prop where
  options : q.options.messageTtl = none
  ready : ∀ qm ∈ q.messages.contents, qm.expiration = none
  inflight : ∀ tag m, q.inflight.get? tag = some m → m.expiration = none

def BrokerState.TimelessAt (s : BrokerState) (name : String) : Prop :=
  ∀ q, s.queues.get? name = some q → q.Timeless

/-- Whether a step limits neither the queue in time nor a message that it brings there. -/
def Effect.limitless (name : String) : Effect → Bool
  | createQueue queue q _ _ => queue != name || q.state.options.messageTtl.isNone
  | enqueue queue ctx _ => queue != name || ctx.perMsgTtl.isNone
  | pushFull queue m => queue != name || m.expiration.isNone
  | _ => true

section
variable {env : Env} {s : BrokerState} {e : Effect} {name queue : String} {q q' : QueueState}
  {now : Instant}

theorem messageTtl_modifyQueue {f : QueueState → QueueState}
    (options : ∀ q, (f q).options = q.options)
    (before : ∀ q, s.queues.get? name = some q → q.options.messageTtl = none)
    (found : (s.modifyQueue queue f).queues.get? name = some q') :
    q'.options.messageTtl = none := by
  rw [get?_modifyQueue] at found
  split at found
  · obtain ⟨q, there, rfl⟩ := Option.map_eq_some_iff.mp found
    rw [options]
    exact before q there
  · exact before q' found

theorem messageTtl_exec (limitless : e.limitless name = true)
    (before : ∀ q, s.queues.get? name = some q → q.options.messageTtl = none)
    (found : (exec env s e).queues.get? name = some q') : q'.options.messageTtl = none := by
  rw [(exec_memory env s e).1] at found
  cases e with
  | books change =>
    rw [Effect.inMemory, change.queues] at found
    exact before q' found
  | tune queue change => exact messageTtl_modifyQueue change.options before found
  | tuneAll change =>
    rw [Effect.inMemory, FinMap.get?_mapVals] at found
    obtain ⟨q, there, rfl⟩ := Option.map_eq_some_iff.mp found
    rw [change.options]
    exact before q there
  | createQueue queue new logs schema =>
    rw [createQueue_queues, FinMap.get?_orInsert] at found
    split at found
    · rename_i same
      cases old : s.queues.get? queue with
      | some q =>
        rw [old] at found
        exact before q' (same ▸ old.trans found)
      | none =>
        rw [old] at found
        cases found
        simpa [Effect.limitless, same] using limitless
    · exact before q' found
  | removeQueue queue =>
    rw [Effect.inMemory, FinMap.get?_erase] at found
    split at found
    · contradiction
    · exact before q' found
  | pop queue fate =>
    exact messageTtl_modifyQueue (popTo_options env s.wal fate) before found
  | popOldest queue => exact messageTtl_modifyQueue dropOldest_options before found
  | requeue queue tag counted =>
    exact messageTtl_modifyQueue (putBack_options · tag counted) before found
  | enqueue | enqueueFull =>
    refine messageTtl_modifyQueue (s := s.allocMsgId.2) ?_ before found
    exact fun _ => rfl
  | pushFull | replicatePublish | replicateAck | purge | settle | discard =>
    refine messageTtl_modifyQueue ?_ before found
    exact fun _ => rfl
  | restart now auth cluster =>
    exact restart_rule (P := fun q => q.options.messageTtl = none) rfl (fun _ _ none => none)
      (fun _ _ _ _ _ none => none) found
  | alloc | createExchange | removeExchange | bind | appendBinding | unbind | compact =>
    exact before q' found

theorem Message.back_expiration (counted : Bool) (m : Message) :
    (m.back counted).expiration = m.expiration := by
  cases counted <;> rfl

theorem buildQueueMessage_expiration (msgId : UInt64) (priority : UInt8)
    (expiration : Option Instant) (diskRef : Option (Nat × Nat × Nat)) (ctx : EnqueueCtx) :
    (buildQueueMessage msgId priority expiration diskRef ctx).expiration = expiration := by
  cases diskRef <;> rfl

theorem adds_timeless (limitless : e.limitless name = true) (timeless : s.TimelessAt name)
    {qm : QueueMessage} (adds : e.Adds env s name qm) : qm.expiration = none := by
  cases adds with
  | @enqueue ctx now qm pushed =>
    obtain ⟨q, there, rfl⟩ := Option.map_eq_some_iff.mp pushed
    have unlimited : ctx.perMsgTtl = none := by simpa [Effect.limitless] using limitless
    rw [buildQueueMessage_expiration, (timeless q there).options, unlimited]
    rfl
  | enqueueFull | replicated => rfl
  | @pushFull m =>
    change m.expiration = none
    simpa [Effect.limitless] using limitless
  | @rotated _ q first m there front _ =>
    exact (QueueMessage.resolve_standing front.2).2.trans ((timeless q there).ready first front.mem)
  | @requeued tag counted q m there held =>
    exact (m.back_expiration counted).trans ((timeless q there).inflight tag m held)
  | restored found member =>
    obtain ⟨_, _, _, _, _, _, rfl⟩ := mem_restart found member
    rfl

theorem timeless_exec (limitless : e.limitless name = true) (timeless : s.TimelessAt name) :
    (exec env s e).TimelessAt name := by
  intro q' found
  constructor
  · exact messageTtl_exec limitless (fun q there => (timeless q there).options) found
  · intro qm member
    cases arrives_exec found member with
    | inl old =>
      obtain ⟨q, there, member⟩ := old
      exact (timeless q there).ready qm member
    | inr new => exact adds_timeless limitless timeless new
  · intro tag m held
    cases inflight_exec found held with
    | inl old =>
      obtain ⟨q, there, held⟩ := old
      exact (timeless q there).inflight tag m held
    | inr front =>
      obtain ⟨-, q, first, there, front⟩ := front
      exact (QueueMessage.resolve_standing front.2).2.trans
        ((timeless q there).ready first front.mem)

theorem timeless_run {es : List Effect} (limitless : ∀ e ∈ es, e.limitless name = true)
    (timeless : s.TimelessAt name) : (Run.run (exec env) s es).TimelessAt name := by
  refine Run.keeps (P := fun t : BrokerState => t.TimelessAt name) ?_ limitless timeless
  intro t e free before
  exact timeless_exec free before

theorem dropExpired_timeless (timeless : s.TimelessAt queue) (fuel : Nat) :
    (dropExpired queue now fuel : Act env Unit).steps s = [] := by
  have fresh : ((s.queues.get? queue).bind (·.messages.peekFront)).any (·.isExpired now) =
      false := by
    cases found : s.queues.get? queue with
    | none => rfl
    | some q =>
      rw [Option.bind_some]
      cases peeked : q.messages.peekFront with
      | none => rfl
      | some qm =>
        obtain ⟨⟨_, rest⟩, popped, rfl⟩ := Option.map_eq_some_iff.mp peeked
        have inside := PriorityQueue.contents_popFront popped ▸ Multiset.mem_cons_self _ _
        rw [Option.any_some, QueueMessage.isExpired, (timeless q found).ready _ inside]
        rfl
  cases fuel with
  | zero => rfl
  | succ fuel =>
    unfold dropExpired
    change (if ((s.queues.get? queue).bind (·.messages.peekFront)).any (·.isExpired now) then _
      else _ : Act env Unit).steps s = []
    rw [if_neg (Bool.eq_false_iff.mp fresh)]
    rfl

theorem takes_dropExpired (fuel : Nat) :
    Takes (· = .pop queue .drop) (dropExpired queue now fuel : Act env Unit) := by
  induction fuel with
  | zero => exact takes_pure _
  | succ fuel ih =>
    refine (takes_read _).bind fun expired => ?_
    split
    · exact Takes.bind (takes_perform rfl) fun _ => ih
    · exact takes_pure _

theorem forM_dropExpired_elsewhere (timeless : s.TimelessAt name) (queues : List (String × Nat)) :
    ∀ e ∈ (queues.forM fun e => dropExpired e.1 now e.2 : Act env PUnit).steps s,
      ∃ other, other ≠ name ∧ e = .pop other .drop := by
  induction queues generalizing s with
  | nil => exact fun e member => by cases member
  | cons entry queues ih =>
    change ∀ e ∈ (dropExpired entry.1 now entry.2 >>= fun _ => queues.forM fun e =>
      dropExpired e.1 now e.2 : Act env PUnit).steps s, _
    have first : ∀ e ∈ (dropExpired entry.1 now entry.2 : Act env Unit).steps s,
        e = .pop entry.1 .drop := takes_dropExpired entry.2 s
    have still : ((dropExpired entry.1 now entry.2 : Act env Unit).final s).TimelessAt name :=
      timeless_run (fun e member => by rw [first e member]; rfl) timeless
    intro e member
    rw [steps_bind] at member
    cases List.mem_append.mp member with
    | inr later => exact ih still e later
    | inl here =>
      refine ⟨entry.1, fun same => ?_, first e here⟩
      rw [dropExpired_timeless (same ▸ timeless)] at here
      cases here

theorem messageTtlTask_elsewhere (timeless : s.TimelessAt name) :
    ∀ e ∈ (handle (.messageTtlTask now) : Act env (List Frame)).steps s,
      ∃ other, other ≠ name ∧ e = .pop other .drop := by
  intro e member
  change e ∈ (messageTtlTask now >>= fun _ => pure [] : Act env (List Frame)).steps s at member
  rw [steps_bind] at member
  cases List.mem_append.mp member with
  | inl swept => exact forM_dropExpired_elsewhere timeless _ e swept
  | inr nothing => cases nothing

/-- A queue without time limit is the same behind a sweep. -/
theorem messageTtlTask_timeless (timeless : s.TimelessAt name) :
    (served env s (.messageTtlTask now)).queues.get? name = s.queues.get? name := by
  have elsewhere : ∀ e ∈ (handle (.messageTtlTask now) : Act env (List Frame)).steps s,
      ∃ other, other ≠ name ∧ e = .pop other .drop := messageTtlTask_elsewhere timeless
  refine Run.keeps (P := fun t : BrokerState => t.queues.get? name = s.queues.get? name)
    (fun t e kind same => ?_) elsewhere rfl
  obtain ⟨other, apart, rfl⟩ := kind
  rw [(exec_memory env t _).1]
  change (t.modifyQueue other _).queues.get? name = _
  rw [get?_modifyQueue, if_neg apart.symm, same]

end
end RocketmqBroker
