import RocketmqBroker.Broker.Footprint
import RocketmqBroker.Delivery.Requests
import RocketmqBroker.Durability.LogView
import RocketmqBroker.Storage.Recovered

/-!
What becomes of a mandatory message. Routing looks at the bindings of an exchange, and a
binding stays when its queue goes. A message with such targets only is counted as
routed: no queue has it, and the client hears nothing.
-/
namespace RocketmqBroker
open Run.Program

/-- The queues that the exchange has for a message. -/
def PublishArgs.targets (env : Env) (args : PublishArgs) (ex : Exchange) : List String :=
  ex.routeEach args.routingKey (resolvePublishHeaders env args.properties)

/-- A mandatory message, published outside of a transaction to an exchange that exists,
    with the permission and with a body that no schema refuses. -/
structure Mandatory (env : Env) (s : BrokerState) (connId : UInt64) (args : PublishArgs)
    (ex : Exchange) : Prop where
  mandatory : args.mandatory = true
  permitted : checkPermission env s connId (·.write) args.exchange = true
  outsideTx : (s.connState.get? connId).any (·.txMode) = false
  known : s.exchanges.get? args.exchange = some ex
  valid : schemaFailure env s (args.targets env ex) args.body = none

/-- The frame that hands a message back to its sender. -/
def PublishArgs.returned (args : PublishArgs) : Frame :=
  .basicReturn noRoute "NO_ROUTE" args.exchange args.routingKey args.properties.encode args.body

def PublishArgs.Made (args : PublishArgs) (m : QueueMessage) : Prop :=
  ∃ msgId priority expiration diskRef,
    m = buildQueueMessage msgId priority expiration diskRef args.ctx

/-- A step adds such a message to the queue, and takes none away. -/
def AddsMessage (env : Env) (args : PublishArgs) (queue : String) (s : BrokerState)
    (e : Effect) : Prop :=
  ∃ q q' m, s.queues.get? queue = some q ∧ (exec env s e).queues.get? queue = some q' ∧
    args.Made m ∧ q'.messages.contents = m ::ₘ q.messages.contents

/-- A queue gains the message at one of the steps of the request. -/
def Gains (env : Env) (s : BrokerState) (op : Op) (args : PublishArgs) (queue : String) : Prop :=
  Somewhere (AddsMessage env args queue) (handle op : Act env (List Frame)) s

def Effect.publishes : Effect → Bool
  | .books _ => true
  | .popOldest _ => true
  | .enqueue _ _ _ => true
  | _ => false

section
variable {env : Env} {s : BrokerState} {queue name : String} {args : PublishArgs} {e : Effect}

theorem not_adds_of_fewer {q q' : QueueState} {m : QueueMessage}
    (fewer : q'.messages.contents ≤ q.messages.contents) :
    q'.messages.contents ≠ m ::ₘ q.messages.contents := by
  intro more
  have count := Multiset.card_le_card fewer
  rw [more, Multiset.card_cons] at count
  omega

theorem not_adds_books (change : Bookkeeping) : ¬ AddsMessage env args name s (.books change) := by
  rintro ⟨q, q', m, found, there, -, more⟩
  rw [(exec_memory env s _).1, Effect.inMemory, change.queues, found] at there
  obtain rfl := Option.some.inj there
  exact not_adds_of_fewer le_rfl more

theorem dropOldest_contents (q : QueueState) :
    q.dropOldest.messages.contents ≤ q.messages.contents := by
  unfold QueueState.dropOldest
  split
  · exact le_rfl
  · rename_i m rest popped
    rw [PriorityQueue.contents_popOldest popped]
    exact Multiset.le_cons_self _ _

theorem not_adds_popOldest : ¬ AddsMessage env args name s (.popOldest queue) := by
  rintro ⟨q, q', m, found, there, -, more⟩
  rw [(exec_memory env s _).1] at there
  change (s.modifyQueue queue _).queues.get? name = _ at there
  rw [get?_modifyQueue, found] at there
  split at there
  · obtain rfl := Option.some.inj there
    exact not_adds_of_fewer (dropOldest_contents q) more
  · obtain rfl := Option.some.inj there
    exact not_adds_of_fewer le_rfl more

theorem adds_enqueue (now : Instant) :
    AddsMessage env args name s (.enqueue queue args.ctx now) ↔
      name = queue ∧ s.queues.contains queue = true := by
  constructor
  · rintro ⟨q, q', m, found, there, -, more⟩
    rw [(exec_memory env s _).1] at there
    change (s.allocMsgId.2.modifyQueue queue _).queues.get? name = _ at there
    rw [get?_modifyQueue] at there
    split at there
    · rename_i same
      subst same
      exact ⟨rfl, Option.isSome_iff_exists.mpr ⟨q, found⟩⟩
    · obtain rfl := Option.some.inj (found.symm.trans there)
      exact absurd more (not_adds_of_fewer le_rfl)
  · rintro ⟨rfl, present⟩
    obtain ⟨q, found⟩ := Option.isSome_iff_exists.mp present
    let m := buildQueueMessage s.nextMsgId (capPriority args.ctx.priority q.options.maxPriority)
      (resolveTtl q.options.messageTtl args.ctx.perMsgTtl now)
      (persistIfDurable env s.wal q name s.nextMsgId args.ctx) args.ctx
    refine ⟨q, { q.pushBack m with lastActivity := now }, m, found, ?_, ⟨_, _, _, _, rfl⟩,
      PriorityQueue.contents_pushBack q.messages m⟩
    rw [(exec_memory env s _).1]
    change (s.allocMsgId.2.modifyQueue name _).queues.get? name = _
    rw [get?_modifyQueue, if_pos rfl]
    change (s.queues.get? name).map _ = _
    rw [found]
    rfl

theorem contains_publishes (publishes : e.publishes = true) (name : String) :
    (exec env s e).queues.contains name = s.queues.contains name := by
  rw [(exec_memory env s e).1]
  cases e with
  | books change => rw [Effect.inMemory, change.queues]
  | popOldest | enqueue => exact FinMap.contains_modify _ _ _ _
  | _ => cases publishes

/-- The push of one target reaches its queue exactly when that exists. -/
theorem adds_enqueueSingle (now : Instant) :
    Somewhere (AddsMessage env args name) (enqueueSingle queue args.ctx now : Act env Unit) s ↔
      name = queue ∧ s.queues.contains queue = true := by
  unfold enqueueSingle
  rw [somewhere_bind, result_look, final_look]
  have looks : ¬ Somewhere (AddsMessage env args name)
      (look fun s => s.queues.get? queue : Act env _) s := not_somewhere_pure _
  rw [or_iff_right looks]
  cases found : s.queues.get? queue with
  | none => exact somewhere_perform.trans (adds_enqueue now)
  | some q =>
    dsimp only
    cases q.options.maxLength with
    | none => exact somewhere_perform.trans (adds_enqueue now)
    | some maxLen =>
      have turns : Takes (fun e => .popOldest queue = e)
          (evictOverflow queue maxLen q.messages.len : Act env Unit) :=
        takes_evictOverflow rfl maxLen _
      have evicts : ¬ Somewhere (AddsMessage env args name)
          (evictOverflow queue maxLen q.messages.len : Act env Unit) s :=
        turns.nowhere fun s e oldest => by
          subst oldest
          exact not_adds_popOldest
      have same :
          ((evictOverflow queue maxLen q.messages.len : Act env Unit).final s).queues.contains
            queue = s.queues.contains queue :=
        turns.keeps (P := fun t => t.queues.contains queue = s.queues.contains queue)
          (fun t e oldest before => by
            subst oldest
            exact (contains_publishes rfl queue).trans before) rfl
      rw [somewhere_bind, or_iff_right evicts, ← same]
      exact somewhere_perform.trans (adds_enqueue now)

theorem adds_targets (targets : List String) (now : Instant) :
    Somewhere (AddsMessage env args name)
        (targets.forM fun queue => enqueueSingle queue args.ctx now : Act env PUnit) s ↔
      name ∈ targets ∧ s.queues.contains name = true := by
  induction targets generalizing s with
  | nil => exact iff_of_false (not_somewhere_pure _) fun h => by cases h.1
  | cons queue targets ih =>
    have publishes : Takes (fun e => e.publishes = true)
        (enqueueSingle queue args.ctx now : Act env Unit) := takes_enqueueSingle rfl rfl
    have same : ((enqueueSingle queue args.ctx now : Act env Unit).final s).queues.contains name =
        s.queues.contains name :=
      publishes.keeps (P := fun t => t.queues.contains name = s.queues.contains name)
        (fun t e publishes before => (contains_publishes publishes name).trans before) rfl
    change Somewhere _ (enqueueSingle queue args.ctx now >>= fun _ => targets.forM fun queue =>
      enqueueSingle queue args.ctx now : Act env PUnit) s ↔ _
    rw [somewhere_bind, adds_enqueueSingle, ih, same, List.mem_cons, or_and_right]
    refine or_congr_left (and_congr_right fun here => ?_)
    rw [here]

def publishTargets (args : PublishArgs) (targets : List String) (now : Instant)
    (tag : Option UInt64) : Act env (List Frame) :=
  if targets.isEmpty then return handleNoRoute args tag
  else do
    targets.forM fun queue => enqueueSingle queue args.ctx now
    return confirmAck tag

variable {connId : UInt64} {channel : UInt16} {ex : Exchange} {now : Instant}

theorem allocConfirmTag_keeps (env : Env) (connId : UInt64) (channel : UInt16) :
    Leaves (fun s : BrokerState =>
        (s.queues, s.exchanges, (s.connState.get? connId).any (·.txMode)))
      (allocConfirmTag connId channel : Act env (Option UInt64)) := by
  have counted (f : ChannelState → ChannelState) : Leaves (fun s : BrokerState =>
      (s.queues, s.exchanges, (s.connState.get? connId).any (·.txMode)))
      (withChannel connId channel f : Act env Unit) := by
    refine leaves_perform fun s => ?_
    change (s.queues, s.exchanges, ((s.connState.modify connId fun cs => { cs with
      channels := cs.channels.modify channel f }).get? connId).any (·.txMode)) = _
    rw [FinMap.get?_modify, if_pos rfl, Option.any_map]
  refine (leaves_read _).bind fun found => ?_
  split
  · exact leaves_pure _
  · split
    · exact leaves_pure _
    · exact (counted _).bind fun _ => leaves_pure _

theorem basicPublish_mandatory (mandatory : Mandatory env s connId args ex) :
    (basicPublish connId channel args now : Act env (List Frame)) s =
      (allocConfirmTag connId channel >>= publishTargets args (args.targets env ex) now :
        Act env (List Frame)) s := by
  unfold basicPublish
  change (if !checkPermission env s connId (·.write) args.exchange then _ else
    allocConfirmTag connId channel >>= _ : Act env (List Frame)) s = _
  rw [mandatory.permitted]
  refine bind_congr_at ?_
  have kept := allocConfirmTag_keeps env connId channel s
  generalize (allocConfirmTag connId channel : Act env (Option UInt64)).result s = tag
  generalize (allocConfirmTag connId channel : Act env (Option UInt64)).final s = t at kept ⊢
  obtain ⟨queues, others⟩ := Prod.mk.inj kept
  obtain ⟨exchanges, outside⟩ := Prod.mk.inj others
  rw [mandatory.outsideTx] at outside
  have direct : (bufferTxPublish connId args : Act env Bool) t = (false, []) := by
    unfold bufferTxPublish
    change (if (t.connState.get? connId).any (·.txMode) then _ else pure _ : Act env Bool) t = _
    rw [outside, if_neg Bool.false_ne_true]
    exact congrArg (·, []) outside
  have known : t.exchanges.get? args.exchange = some ex := by
    rw [exchanges]
    exact mandatory.known
  have valid : schemaFailure env t (args.targets env ex) args.body = none := by
    unfold schemaFailure
    rw [queues]
    exact mandatory.valid
  have found : (look fun s => s.exchanges.get? args.exchange : Act env _) t = (some ex, []) :=
    congrArg (·, []) known
  have passed : (look fun s => schemaFailure env s (args.targets env ex) args.body : Act env _) t =
      (none, []) := congrArg (·, []) valid
  unfold publishTargets
  refine (bind_still direct).trans ((bind_still found).trans ?_)
  change (if (args.targets env ex).isEmpty then _ else _ : Act env (List Frame)) t = _
  split
  · rfl
  · exact bind_still passed

theorem publishTargets_returns (targets : List String) (tag : Option UInt64)
    (asked : args.mandatory = true) :
    args.returned ∈ (publishTargets args targets now tag : Act env (List Frame)).result s ↔
      targets = [] := by
  unfold publishTargets
  rw [← List.isEmpty_iff]
  split
  · rename_i unrouted
    refine iff_of_true ?_ unrouted
    change _ ∈ handleNoRoute args tag
    unfold handleNoRoute
    rw [if_pos asked]
    exact List.mem_append_left _ (List.mem_singleton_self _)
  · rename_i routed
    refine iff_of_false ?_ routed
    change _ ∉ confirmAck tag
    cases tag <;> simp [confirmAck, PublishArgs.returned]

theorem publishTargets_adds (targets : List String) (tag : Option UInt64) :
    Somewhere (AddsMessage env args name)
        (publishTargets args targets now tag : Act env (List Frame)) s ↔
      name ∈ targets ∧ s.queues.contains name = true := by
  unfold publishTargets
  split
  · rename_i unrouted
    rw [List.isEmpty_iff.mp unrouted]
    exact iff_of_false (not_somewhere_pure _) fun h => by cases h.1
  · rw [somewhere_bind, or_iff_left (not_somewhere_pure _)]
    exact adds_targets targets now

theorem gains_iff (mandatory : Mandatory env s connId args ex) (channel : UInt16)
    (now : Instant) (name : String) :
    Gains env s (.basicPublish connId channel args now) args name ↔
      name ∈ args.targets env ex ∧ s.queues.contains name = true := by
  have books : Takes (fun e => ∃ b, e = .books b)
      (allocConfirmTag connId channel : Act env (Option UInt64)) :=
    @takes_allocConfirmTag _ _ none (fun b _ => ⟨b, rfl⟩) connId channel
  have numbered : ¬ Somewhere (AddsMessage env args name)
      (allocConfirmTag connId channel : Act env (Option UInt64)) s :=
    books.nowhere fun s e kind => by
      obtain ⟨change, rfl⟩ := kind
      exact not_adds_books change
  have queues := (Prod.mk.inj (allocConfirmTag_keeps env connId channel s)).1
  have same : Gains env s (.basicPublish connId channel args now) args name ↔
      Somewhere (AddsMessage env args name)
        (allocConfirmTag connId channel >>= publishTargets args (args.targets env ex) now :
          Act env (List Frame)) s := by
    unfold Gains Somewhere steps
    rw [← basicPublish_mandatory mandatory]
    rfl
  rw [same, somewhere_bind, or_iff_right numbered, publishTargets_adds, queues]

theorem returns_iff (mandatory : Mandatory env s connId args ex) (channel : UInt16)
    (now : Instant) :
    args.returned ∈ answer env s (.basicPublish connId channel args now) ↔
      args.targets env ex = [] := by
  have same : answer env s (.basicPublish connId channel args now) =
      (allocConfirmTag connId channel >>= publishTargets args (args.targets env ex) now :
        Act env (List Frame)).result s := by
    unfold answer result
    rw [← basicPublish_mandatory mandatory]
    rfl
  rw [same, result_bind]
  exact publishTargets_returns _ _ mandatory.mandatory

theorem not_heard (mandatory : Mandatory env s connId args ex) (channel : UInt16) (now : Instant)
    (routed : args.targets env ex ≠ [])
    (gone : ∀ queue ∈ args.targets env ex, s.queues.contains queue = false) :
    ¬ ((∃ queue, Gains env s (.basicPublish connId channel args now) args queue) ∨
      args.returned ∈ answer env s (.basicPublish connId channel args now)) := by
  rintro (⟨queue, gains⟩ | back)
  · obtain ⟨member, present⟩ := (gains_iff mandatory channel now queue).mp gains
    rw [gone queue member] at present
    cases present
  · exact routed ((returns_iff mandatory channel now).mp back)

end

/-- A mandatory message is gained by a queue or returned exactly when it has no target or
    a target that exists. -/
theorem mandatory_heard_iff (env : Env) (s : BrokerState) (connId : UInt64) (channel : UInt16)
    (args : PublishArgs) (now : Instant) (ex : Exchange)
    (mandatory : Mandatory env s connId args ex) :
    ((∃ queue, Gains env s (.basicPublish connId channel args now) args queue) ∨
        args.returned ∈ answer env s (.basicPublish connId channel args now)) ↔
      args.targets env ex = [] ∨
        ∃ queue ∈ args.targets env ex, s.queues.contains queue = true := by
  have gains : (∃ queue, Gains env s (.basicPublish connId channel args now) args queue) ↔
      ∃ queue ∈ args.targets env ex, s.queues.contains queue = true :=
    exists_congr fun queue => gains_iff mandatory channel now queue
  rw [gains, returns_iff mandatory channel now]
  exact or_comm

/-- A mandatory message for a queue, through the default exchange. -/
def mandatoryTo (queue : String) : PublishArgs :=
  ⟨"", queue, true, BasicProperties.default, [1]⟩

def boundDefault (queue : String) : Exchange := ⟨"", .direct, true, [⟨queue, queue, none⟩]⟩

theorem mandatory_heard_once :
    (∃ queue, Gains (plainEnv 64 1) (reached (plainEnv 64 1) guestOnly none (session "q"))
      (.basicPublish 1 1 (mandatoryTo "q") 0) (mandatoryTo "q") queue) ∨
    (mandatoryTo "q").returned ∈ answer (plainEnv 64 1)
      (reached (plainEnv 64 1) guestOnly none (session "q"))
      (.basicPublish 1 1 (mandatoryTo "q") 0) := by
  let s := reached (plainEnv 64 1) guestOnly none (session "q")
  have mandatory : Mandatory (plainEnv 64 1) s 1 (mandatoryTo "q") (boundDefault "q") :=
    ⟨rfl, by decide +kernel, by decide +kernel, by decide +kernel, by decide +kernel⟩
  have bound : ∃ queue ∈ (mandatoryTo "q").targets (plainEnv 64 1) (boundDefault "q"),
      s.queues.contains queue = true := ⟨"q", by decide +kernel, by decide +kernel⟩
  exact (mandatory_heard_iff (plainEnv 64 1) s 1 1 (mandatoryTo "q") 0 (boundDefault "q")
    mandatory).mpr (.inr bound)

/-- The queue is deleted, its binding stays, and a mandatory message for it is lost without
    a word. -/
theorem deleted_queue_swallows : ¬ ∀ (ops : List Op) (connId : UInt64) (channel : UInt16)
    (args : PublishArgs) (now : Instant) (ex : Exchange),
    let s := reached (plainEnv 64 1) guestOnly none ops
    Mandatory (plainEnv 64 1) s connId args ex →
      (∃ queue, Gains (plainEnv 64 1) s (.basicPublish connId channel args now) args queue) ∨
        args.returned ∈ answer (plainEnv 64 1) s (.basicPublish connId channel args now) := by
  intro law
  let ops := session "q" ++ [.queueDelete 1 "q" false false false]
  let s := reached (plainEnv 64 1) guestOnly none ops
  have mandatory : Mandatory (plainEnv 64 1) s 1 (mandatoryTo "q") (boundDefault "q") :=
    ⟨rfl, by decide +kernel, by decide +kernel, by decide +kernel, by decide +kernel⟩
  have targets : (mandatoryTo "q").targets (plainEnv 64 1) (boundDefault "q") = ["q"] := by
    decide +kernel
  have gone : s.queues.contains "q" = false := by decide +kernel
  refine not_heard mandatory 1 0 ?_ ?_
    (law ops 1 1 (mandatoryTo "q") 0 (boundDefault "q") mandatory)
  · rw [targets]
    exact List.cons_ne_nil _ _
  · intro queue member
    rw [targets] at member
    rw [List.mem_singleton.mp member]
    exact gone

end RocketmqBroker
