import RocketmqBroker.Access.Exclusive
import RocketmqBroker.Broker.Footprint
import RocketmqBroker.Delivery.HandOuts
import RocketmqBroker.Server.Expiry

/-!
Permissions, method by method. Every handler has to ask for the permission itself, and those
that fetch, purge and delete do not: what they keep from a user they keep for other reasons.
-/
namespace RocketmqBroker
open Run Run.Program

def Effect.puts? : Effect → Option (String × String)
  | enqueue queue ctx _ => some (queue, ctx.exchange)
  | enqueueFull queue exchange _ _ _ => some (queue, exchange)
  | pushFull queue m => some (queue, m.exchange)
  | _ => none

def PutsThrough (exchange : String) (s : BrokerState) (e : Effect) : Prop :=
  ∃ queue, e.puts? = some (queue, exchange) ∧ s.queues.contains queue = true

def HandsOut (env : Env) (queue : String) (s : BrokerState) (e : Effect) : Prop :=
  ∃ m, (queue, m) ∈ e.handed env false s

namespace BrokerState

def Lists (s : BrokerState) (queue : String) (c : Consumer) : Prop :=
  s.HasConsumer queue c ∨ s.Receives queue c

def named (s : BrokerState) (name : String) : Bool × Bool :=
  (s.queues.contains name, s.exchanges.contains name)

def deletes (s : BrokerState) (queue : String) (ifUnused ifEmpty : Bool) : Bool :=
  (s.queues.get? queue).any fun q =>
    !(ifUnused && !q.consumerTags.keys.isEmpty) && !(ifEmpty && !q.messages.isEmpty)

def readyIn (s : BrokerState) (queue : String) : Option (List QueueMessage) :=
  (s.queues.get? queue).map fun q => q.messages.ready

end BrokerState

structure Enforces (env : Env) (s : BrokerState) (connId : UInt64) (channel : UInt16)
    (m : Method) : Prop where
  hands : ∀ queue, checkPermission env s connId (·.read) queue = false →
    ¬ Somewhere (HandsOut env queue) (handle (dispatchMethod connId channel m) :
      Act env (List Frame)) s
  answers : ∀ queue noAck, m = .basicGet queue noAck →
    checkPermission env s connId (·.read) queue = false →
      ∀ f ∈ answer env s (dispatchMethod connId channel m), f.messageId = none
  subscribes : ∀ queue c, c.connId = connId → checkPermission env s connId (·.read) queue = false →
    (served env s (dispatchMethod connId channel m)).Lists queue c → s.Lists queue c
  purges : ∀ queue noWait, m = .queuePurge queue noWait →
    checkPermission env s connId (·.read) queue = false →
      (served env s (dispatchMethod connId channel m)).readyIn queue = s.readyIn queue
  configures : ∀ name, checkPermission env s connId (·.configure) name = false →
    (served env s (dispatchMethod connId channel m)).named name = s.named name
  writes : ∀ exchange, checkPermission env s connId (·.write) exchange = false →
    ¬ Somewhere (PutsThrough exchange) (handle (dispatchMethod connId channel m) :
      Act env (List Frame)) s

/-- Every method is held to the permissions, and deliveries go to those who are listed. -/
def EnforcesAt (env : Env) (s : BrokerState) : Input → Prop
  | .method connId channel m => Enforces env s connId channel m
  | .event (.deliverRound queue answers now) => ∀ connId channel tag m,
    .basicDeliver connId channel tag m ∈ answer env s (.deliverRound queue answers now) →
      ∃ c, s.Lists queue c ∧ c.tag = tag ∧ c.connId = connId ∧ c.channel = channel
  | .event _ => True

/-- The methods that do not ask are those of a user who has the permission, or have nothing
    to do it to. A commit pushes what was allowed when it was buffered. -/
def Permitted (env : Env) (s : BrokerState) (connId : UInt64) : Method → Prop
  | .basicGet queue _ =>
    checkPermission env s connId (·.read) queue = true ∨ frontAt env s queue = []
  | .queuePurge queue _ => checkPermission env s connId (·.read) queue = true ∨
    ∀ q, s.queues.get? queue = some q → q.messages.ready = []
  | .queueDelete name ifUnused ifEmpty _ =>
    checkPermission env s connId (·.configure) name = true ∨ s.deletes name ifUnused ifEmpty = false
  | .exchangeDelete name _ => checkPermission env s connId (·.configure) name = true ∨
    "amq.".isPrefixOf name = true ∨ s.exchanges.contains name = false
  | .txCommit => ∀ cs, s.connState.get? connId = some cs → cs.txMode = true →
    txSchemaFailure env s cs.txBuffer = none → ∀ exchange routingKey headers body,
      .publish exchange routingKey headers body ∈ cs.txBuffer →
        s.queues.contains routingKey = true → checkPermission env s connId (·.write) exchange = true
  | _ => True

def PermittedAt (env : Env) (s : BrokerState) : Input → Prop
  | .method connId _ m => Permitted env s connId m
  | .event _ => True

section
variable {env : Env} {s : BrokerState} {connId : UInt64} {channel : UInt16} {m : Method}

/-! What is handed out. -/

theorem nowhere_hands {op : Op} (keeps : ∀ queue fate, op.performs (.pop queue fate) = false)
    (queue : String) :
    ¬ Somewhere (HandsOut env queue) (handle op : Act env (List Frame)) s := by
  refine (takes_handle op).nowhere fun t e performs => ?_
  rintro ⟨m, handed⟩
  obtain ⟨fate, rfl, -⟩ := mem_handed handed
  rw [keeps] at performs
  cases performs

theorem somewhere_look {α : Type} {here : BrokerState → Effect → Prop} {f : BrokerState → α}
    {g : α → Act env (List Frame)} :
    Somewhere here (look f >>= g) s ↔ Somewhere here (g (f s)) s := Iff.rfl

theorem hands_pop {queue name : String} {fate : Fate} (taken : fate ≠ .front) :
    HandsOut env name s (.pop queue fate) ↔ name = queue ∧ frontAt env s queue ≠ [] := by
  constructor
  · rintro ⟨m, handed⟩
    obtain ⟨_, ⟨⟩, -, front⟩ := mem_handed handed
    exact ⟨rfl, List.ne_nil_of_mem front⟩
  · rintro ⟨rfl, front⟩
    obtain ⟨m, member⟩ := List.exists_mem_of_ne_nil _ front
    refine ⟨m, ?_⟩
    rw [Effect.handed, if_neg (by simp [taken])]
    exact List.mem_map_of_mem member

theorem hands_basicGet (queue name : String) (noAck : Bool) :
    Somewhere (HandsOut env name) (basicGet connId queue noAck : Act env (List Frame)) s ↔
      name = queue ∧ frontAt env s queue ≠ [] := by
  unfold basicGet
  rw [somewhere_look]
  cases found : s.queues.get? queue with
  | none => simp [frontAt, found, sendChannelError, not_somewhere_pure]
  | some q =>
    dsimp only
    cases popped : q.messages.popFront with
    | none => simp [frontAt, found, popped, not_somewhere_pure]
    | some front =>
      obtain ⟨qm, rest⟩ := front
      dsimp only
      rw [somewhere_look]
      cases resolved : qm.resolve env.crc32 s.wal with
      | error err =>
        dsimp only
        rw [somewhere_bind]
        simp [perform, somewhere_perform, hands_pop, not_somewhere_pure]
      | ok m =>
        dsimp only
        cases noAck with
        | true =>
          rw [if_pos rfl, somewhere_bind]
          simp [perform, somewhere_perform, hands_pop, not_somewhere_pure]
        | false =>
          have tracked (t : BrokerState) : ¬ Somewhere (HandsOut env name)
              (trackDelivery connId queue m.id : Act env Unit) t := by
            rintro (⟨_, handed⟩ | later)
            · cases handed
            · exact later
          rw [if_neg Bool.false_ne_true, somewhere_bind, somewhere_bind]
          simp [perform, somewhere_perform, hands_pop, not_somewhere_pure, tracked]

theorem answers_basicGet (queue : String) (noAck : Bool) :
    (∀ f ∈ answer env s (.basicGet connId queue noAck), f.messageId = none) ↔
      frontAt env s queue = [] := by
  change (∀ f ∈ (basicGet connId queue noAck : Act env (List Frame)).result s, _) ↔ _
  unfold basicGet
  rw [result_bind, result_look, final_look]
  cases found : s.queues.get? queue with
  | none =>
    have told : ∀ f ∈ closeFrames notFound "NOT_FOUND - no such queue" classBasic methodBasicGet,
        f.messageId = none := fun f close => messageId_closeFrames close
    have empty : frontAt env s queue = [] := by
      unfold frontAt
      rw [found]
    exact iff_of_true told empty
  | some q =>
    dsimp only
    cases popped : q.messages.popFront with
    | none => simp [frontAt, found, popped, Frame.messageId]
    | some front =>
      obtain ⟨qm, rest⟩ := front
      dsimp only
      rw [result_bind, result_look, final_look, frontAt_of found popped]
      cases resolved : qm.resolve env.crc32 s.wal with
      | error err =>
        rw [result_bind]
        simp [Frame.messageId, Except.toOption]
      | ok m =>
        dsimp only
        cases noAck with
        | true =>
          rw [if_pos rfl, result_bind]
          simp [Frame.messageId, Except.toOption]
        | false =>
          rw [if_neg Bool.false_ne_true, result_bind, result_bind]
          simp [Frame.messageId, Except.toOption]

/-! What is created and deleted. -/

def Effect.founds (name : String) : Effect → Bool
  | createQueue other _ _ _ | removeQueue other | createExchange other _ _ _
  | removeExchange other => other == name
  | restart .. => true
  | _ => false

theorem named_modifyQueue (queue name : String) (f : QueueState → QueueState) :
    (s.modifyQueue queue f).named name = s.named name :=
  Prod.ext (FinMap.contains_modify _ _ _ _) rfl

theorem named_modifyExchange (exchange name : String) (f : Exchange → Exchange) :
    (s.modifyExchange exchange f).named name = s.named name :=
  Prod.ext rfl (FinMap.contains_modify _ _ _ _)

theorem named_exec {e : Effect} {name : String} (apart : e.founds name = false) :
    (exec env s e).named name = s.named name := by
  have inMemory : (exec env s e).named name = (e.inMemory env s).named name := by
    cases e <;> rfl
  rw [inMemory]
  cases e with
  | books b =>
    have queues := congrArg (FinMap.contains · name) (b.queues s)
    have exchanges := congrArg (FinMap.contains · name) (b.exchanges s)
    exact Prod.ext queues exchanges
  | tuneAll => exact Prod.ext (FinMap.contains_mapVals _ _ _) rfl
  | createQueue other q logs =>
    have another : name ≠ other := (beq_eq_false_iff_ne.mp apart).symm
    have created : BrokerState.named { s with queues := s.queues.orInsert other q.state } name =
      s.named name := Prod.ext (FinMap.contains_orInsert_ne another _) rfl
    cases logs with
    | true => exact (named_modifyExchange _ _ _).trans created
    | false => exact created
  | removeQueue other =>
    exact Prod.ext (FinMap.contains_erase_ne (beq_eq_false_iff_ne.mp apart).symm) rfl
  | createExchange other =>
    exact Prod.ext rfl (FinMap.contains_orInsert_ne (beq_eq_false_iff_ne.mp apart).symm _)
  | removeExchange other =>
    exact Prod.ext rfl (FinMap.contains_erase_ne (beq_eq_false_iff_ne.mp apart).symm)
  | restart => cases apart
  | alloc | compact => rfl
  | bind | appendBinding | unbind => exact named_modifyExchange _ _ _
  | tune | enqueue | enqueueFull | pushFull | replicatePublish | replicateAck | pop | popOldest
  | purge | settle | discard | requeue => exact named_modifyQueue _ _ _

theorem named_of_takes {α : Type} {p : Act env α} {name : String}
    (takes : Takes (fun e => e.founds name = false) p) (s : BrokerState) :
    (p.final s).named name = s.named name :=
  takes.keeps (P := fun t => t.named name = s.named name)
    (fun _ _ apart same => (named_exec apart).trans same) rfl

theorem books_found_none {name : String} (b : Bookkeeping) (_ : b.BuffersOnly none) :
    (Effect.books b).founds name = false := rfl

theorem named_declareNamed (args : QueueDeclareArgs) (now : Instant) (queue : String)
    {name : String} (refused : checkPermission env s connId (·.configure) name = false) :
    ((queueDeclare.declareNamed connId args now queue : Act env (List Frame)).final s).named name =
      s.named name := by
  unfold queueDeclare.declareNamed
  split
  · refine named_of_takes ((takes_read _).bind fun known => ?_) s
    split
    · exact takes_sendDeclareOk _ _
    · exact takes_pure _
  · by_cases same : queue = name
    · subst same
      unfold denied
      rw [final_bind, result_look, final_look, refused, if_pos (Bool.not_eq_true' _ |>.mpr rfl)]
      rfl
    · have another : (queue == name) = false := beq_eq_false_iff_ne.mpr same
      refine named_of_takes ((takes_read _).bind fun refused => ?_) s
      split
      · exact takes_pure _
      · refine takes_declareActive books_found_none ?_ ?_ ?_ connId args now
        · exact fun _ _ => rfl
        · exact fun _ _ _ _ => another
        · exact rfl

theorem named_queueDeclare (args : QueueDeclareArgs) (now : Instant) {name : String}
    (refused : checkPermission env s connId (·.configure) name = false) :
    (served env s (.queueDeclare connId args now)).named name = s.named name := by
  change ((queueDeclare connId args now : Act env (List Frame)).final s).named name = _
  unfold queueDeclare
  split
  · have same : checkPermission env (exec env s .alloc) connId (·.configure) name = false := refused
    rw [final_bind, final_look, final_bind, final_performed]
    exact (named_declareNamed args now _ same).trans (named_exec rfl)
  · split
    · rfl
    · exact named_declareNamed args now _ refused

theorem named_exchangeDeclare (args : ExchangeDeclareArgs) {name : String}
    (refused : checkPermission env s connId (·.configure) name = false) :
    (served env s (.exchangeDeclare connId args)).named name = s.named name := by
  change ((exchangeDeclare connId args : Act env (List Frame)).final s).named name = _
  unfold exchangeDeclare
  split
  · refine named_of_takes ((takes_read _).bind fun known => ?_) s
    split <;> exact takes_pure _
  · by_cases same : args.name = name
    · subst same
      unfold declareActiveExchange denied
      split
      · rfl
      · rw [final_bind, final_bind, result_bind, result_look, final_look, refused,
          if_pos (Bool.not_eq_true' _ |>.mpr rfl)]
        rfl
    · have another : (args.name == name) = false := beq_eq_false_iff_ne.mpr same
      refine named_of_takes (Takes.bind (takes_declareActiveExchange fun _ _ => another)
        fun failed => ?_) s
      cases failed <;> exact takes_pure _

theorem named_queueDelete (queue : String) (ifUnused ifEmpty noWait : Bool) (name : String) :
    (served env s (.queueDelete connId queue ifUnused ifEmpty noWait)).named name =
      if name = queue ∧ s.deletes queue ifUnused ifEmpty = true then
        (false, s.exchanges.contains name) else s.named name := by
  have gone (t : BrokerState) (queues : t.queues = s.queues.erase queue)
      (exchanges : t.exchanges = s.exchanges) : t.named name =
        if name = queue ∧ true = true then (false, s.exchanges.contains name)
        else s.named name := by
    unfold BrokerState.named
    rw [queues, exchanges]
    by_cases same : name = queue
    · rw [if_pos ⟨same, rfl⟩, same, FinMap.contains_erase_self]
    · rw [if_neg fun both => same both.1, FinMap.contains_erase_ne same]
  change ((queueDelete connId queue ifUnused ifEmpty noWait : Act env (List Frame)).final
    s).named name = _
  unfold queueDelete BrokerState.deletes
  rw [final_bind, final_look, result_look]
  cases s.queues.get? queue with
  | none => exact (if_neg fun both => Bool.noConfusion both.2).symm
  | some q =>
    rw [Option.any_some]
    dsimp only
    cases ifUnused && !q.consumerTags.keys.isEmpty with
    | true => exact (if_neg fun both => Bool.noConfusion both.2).symm
    | false =>
      cases ifEmpty && !q.messages.isEmpty with
      | true => exact (if_neg fun both => Bool.noConfusion both.2).symm
      | false => exact gone _ rfl rfl

theorem named_exchangeDelete (exchange : String) (noWait : Bool) (name : String) :
    (served env s (.exchangeDelete exchange noWait)).named name =
      if name = exchange ∧ "amq.".isPrefixOf exchange = false then
        (s.queues.contains name, false) else s.named name := by
  change ((exchangeDelete exchange noWait : Act env (List Frame)).final s).named name = _
  unfold exchangeDelete
  cases "amq.".isPrefixOf exchange with
  | true => exact (if_neg fun both => Bool.noConfusion both.2).symm
  | false =>
    change (s.queues.contains name, (s.exchanges.erase exchange).contains name) = _
    by_cases same : name = exchange
    · rw [if_pos ⟨same, rfl⟩, same, FinMap.contains_erase_self]
    · rw [if_neg fun both => same both.1, FinMap.contains_erase_ne same]
      rfl

/-! What is pushed. -/

theorem nowhere_puts {α : Type} {p : Act env α} (takes : Takes (fun e => e.puts? = none) p)
    (exchange : String) : ¬ Somewhere (PutsThrough exchange) p s := by
  refine takes.nowhere fun t e none_put => ?_
  rintro ⟨queue, puts, -⟩
  rw [none_put] at puts
  cases puts

theorem books_put_none (b : Bookkeeping) (_ : b.BuffersOnly none) :
    (Effect.books b).puts? = none := rfl

theorem puts_basicPublish (args : PublishArgs) (now : Instant) {exchange : String}
    (refused : checkPermission env s connId (·.write) exchange = false) :
    ¬ Somewhere (PutsThrough exchange)
      (basicPublish connId channel args now : Act env (List Frame)) s := by
  by_cases same : args.exchange = exchange
  · subst same
    unfold basicPublish denied
    rw [somewhere_look, refused, if_pos (Bool.not_eq_true' _ |>.mpr rfl)]
    exact not_somewhere_pure _
  · refine (brings_handle (.basicPublish connId channel args now)).nowhere fun t e performs => ?_
    rintro ⟨queue, puts, -⟩
    obtain ⟨performed, brings⟩ := performs
    cases e with
    | enqueue q ctx now' =>
      obtain ⟨_, _, _, _, ⟨⟩, rfl⟩ := brings
      exact same (congrArg Prod.snd (Option.some.inj puts))
    | enqueueFull | pushFull => cases performed
    | _ => cases puts

theorem named_applyTxOp (connId : UInt64) (op : PendingOp) (name : String) :
    ((applyTxOp connId op : Act env Unit).final s).named name = s.named name :=
  named_of_takes (takes_applyTxOp books_found_none (fun _ _ _ _ _ => rfl) (fun _ _ => rfl) connId) s

theorem puts_applyTxOp (connId : UInt64) (exchange : String) (op : PendingOp) :
    Somewhere (PutsThrough exchange) (applyTxOp connId op : Act env Unit) s ↔
      ∃ routingKey headers body, op = .publish exchange routingKey headers body ∧
        s.queues.contains routingKey = true := by
  cases op with
  | publish exchange' routingKey headers body =>
    unfold applyTxOp perform
    rw [somewhere_perform]
    constructor
    · rintro ⟨queue, puts, known⟩
      obtain ⟨rfl, rfl⟩ := Prod.mk.inj (Option.some.inj puts)
      exact ⟨_, headers, body, rfl, known⟩
    · rintro ⟨_, _, _, ⟨⟩, known⟩
      exact ⟨_, rfl, known⟩
  | ack msgId =>
    have takes : Takes (fun e => e.puts? = none) (applyTxOp connId (.ack msgId) : Act env Unit) :=
      takes_applyTxOp books_put_none (fun _ _ _ _ same => by cases same) (fun _ _ => rfl) connId
    refine iff_of_false (nowhere_puts takes exchange) ?_
    rintro ⟨_, _, _, ⟨⟩, -⟩

theorem puts_applyTxOps (connId : UInt64) (exchange : String) (ops : List PendingOp) :
    Somewhere (PutsThrough exchange) (ops.forM (applyTxOp connId) : Act env PUnit) s ↔
      ∃ routingKey headers body, .publish exchange routingKey headers body ∈ ops ∧
        s.queues.contains routingKey = true := by
  induction ops generalizing s with
  | nil => simp [not_somewhere_pure]
  | cons op ops ih =>
    change Somewhere _ (applyTxOp connId op >>= fun _ => ops.forM (applyTxOp connId)) s ↔ _
    rw [somewhere_bind, ih]
    have still (n : String) : ((applyTxOp connId op : Act env Unit).final s).queues.contains n =
        s.queues.contains n := congrArg Prod.fst (named_applyTxOp connId op n)
    simp only [still, puts_applyTxOp, List.mem_cons]
    constructor
    · rintro (⟨routingKey, headers, body, rfl, known⟩ | ⟨routingKey, headers, body, later, known⟩)
      · exact ⟨routingKey, headers, body, .inl rfl, known⟩
      · exact ⟨routingKey, headers, body, .inr later, known⟩
    · rintro ⟨routingKey, headers, body, rfl | later, known⟩
      · exact .inl ⟨routingKey, headers, body, rfl, known⟩
      · exact .inr ⟨routingKey, headers, body, later, known⟩

theorem puts_txCommit (exchange : String) :
    Somewhere (PutsThrough exchange) (txCommit connId : Act env (List Frame)) s ↔
      ∃ cs, s.connState.get? connId = some cs ∧ cs.txMode = true ∧
        txSchemaFailure env s cs.txBuffer = none ∧ ∃ routingKey headers body,
          .publish exchange routingKey headers body ∈ cs.txBuffer ∧
            s.queues.contains routingKey = true := by
  have drains : Takes (fun e => e.puts? = none)
      (drainTxBuffer connId : Act env (Option (List PendingOp))) :=
    takes_drainTxBuffer books_put_none connId
  have queues : ((drainTxBuffer connId : Act env (Option (List PendingOp))).final s).queues =
      s.queues := by
    unfold drainTxBuffer
    rw [final_bind, final_look, result_look]
    split <;> rfl
  unfold txCommit
  rw [somewhere_bind, result_drainTxBuffer, or_iff_right (nowhere_puts drains exchange)]
  generalize (drainTxBuffer connId : Act env (Option (List PendingOp))).final s = t at queues ⊢
  cases found : s.connState.get? connId with
  | none => simp [notInTx, sendChannelError, not_somewhere_pure]
  | some cs =>
    cases began : cs.txMode with
    | false =>
      rw [Option.filter_some, began, if_neg Bool.false_ne_true]
      simp [began, notInTx, sendChannelError, not_somewhere_pure]
    | true =>
      have failure : txSchemaFailure env t cs.txBuffer = txSchemaFailure env s cs.txBuffer := by
        unfold txSchemaFailure schemaFailure
        rw [queues]
      rw [Option.filter_some, began, if_pos rfl, Option.map_some]
      dsimp only
      rw [somewhere_look, failure]
      cases refused : txSchemaFailure env s cs.txBuffer with
      | some err => simp [began, refused, sendChannelError, not_somewhere_pure]
      | none =>
        dsimp only
        rw [somewhere_bind, puts_applyTxOps, queues, or_iff_left (not_somewhere_pure _)]
        simp [began, refused]

/-! Method by method. -/

theorem lists_iff {queue : String} {c : Consumer} : s.Lists queue c ↔
    (s.view.queue queue).consumerTags.get? c.tag = some (c.connId, c.channel, c.noAck) ∨
      c ∈ (s.view.queue queue).activeConsumers := by
  change _ ↔ (s.queueView queue).consumerTags.get? _ = _ ∨ c ∈ (s.queueView queue).activeConsumers
  unfold BrokerState.Lists BrokerState.HasConsumer BrokerState.Receives BrokerState.queueView
  cases s.queues.get? queue with
  | none => simp [QueueView.missing]
  | some q => simp [QueueState.view]

theorem lists_basicConsume {args : ConsumeArgs} {queue : String} {c : Consumer}
    (listed : (served env s (.basicConsume connId channel args)).Lists queue c) :
    s.Lists queue c ∨
      c.connId = connId ∧ queue = args.queue ∧ s.acceptsConsumer env connId args = true := by
  have outcome : (served env s (.basicConsume connId channel args)).registries = _ :=
    registries_basicConsume env s connId channel args
  unfold BrokerState.Lists BrokerState.HasConsumer BrokerState.Receives at listed ⊢
  cases accepted : s.acceptsConsumer env connId args with
  | false =>
    rw [accepted, if_neg Bool.false_ne_true] at outcome
    rw [(Prod.mk.inj outcome).1] at listed
    exact .inl listed
  | true =>
    rw [accepted, if_pos rfl] at outcome
    rw [(Prod.mk.inj outcome).1, FinMap.get?_modify] at listed
    split at listed
    · rename_i here
      refine or_iff_not_imp_right.mpr fun stranger => ?_
      have other : c.connId ≠ connId := fun same => stranger ⟨same, here, rfl⟩
      have old {tags : FinMap String (UInt64 × UInt16 × Bool)} {tag : String}
          (found : (tags.insert tag (connId, channel, args.noAck)).get? c.tag =
            some (c.connId, c.channel, c.noAck)) :
          tags.get? c.tag = some (c.connId, c.channel, c.noAck) := by
        rw [FinMap.get?_insert] at found
        split at found
        · exact absurd (Prod.mk.inj (Option.some.inj found)).1.symm other
        · exact found
      rw [here]
      obtain ⟨q', changed, found⟩ | ⟨q', changed, active⟩ := listed
      · obtain ⟨q, present, rfl⟩ := Option.map_eq_some_iff.mp changed
        exact .inl ⟨q, present, old found⟩
      · obtain ⟨q, present, rfl⟩ := Option.map_eq_some_iff.mp changed
        exact .inl ⟨q, present, old (mem_snapshotConsumers.mp active)⟩
    · exact .inl listed

theorem lists_served {op : Op} {queue : String} {c : Consumer}
    (listed : (served env s op).Lists queue c) : s.Lists queue c ∨
      ∃ channel args, op = .basicConsume c.connId channel args ∧ queue = args.queue ∧
        s.acceptsConsumer env c.connId args = true := by
  by_cases consumes : ∃ connId channel args, op = .basicConsume connId channel args
  · obtain ⟨connId, channel, args, rfl⟩ := consumes
    refine (lists_basicConsume listed).imp id ?_
    rintro ⟨rfl, here, accepted⟩
    exact ⟨channel, args, rfl, here, accepted⟩
  · have other (connId : UInt64) (channel : UInt16) (args : ConsumeArgs) :
        op ≠ .basicConsume connId channel args :=
      fun same => consumes ⟨connId, channel, args, same⟩
    have fewer := (serves_any env s op).fewerConsumers other
    rw [lists_iff] at listed ⊢
    exact .inl (listed.imp (fewer.tags queue _ _) fun active => (fewer.active queue).subset active)

theorem subscribes_method {queue : String} {c : Consumer} (own : c.connId = connId)
    (refused : checkPermission env s connId (·.read) queue = false)
    (listed : (served env s (dispatchMethod connId channel m)).Lists queue c) :
    s.Lists queue c := by
  refine (lists_served listed).resolve_right ?_
  rintro ⟨_, args, -, rfl, accepted⟩
  unfold BrokerState.acceptsConsumer at accepted
  rw [own, refused] at accepted
  cases accepted

theorem hands_method (permitted : Permitted env s connId m) {queue : String}
    (refused : checkPermission env s connId (·.read) queue = false) :
    ¬ Somewhere (HandsOut env queue) (handle (dispatchMethod connId channel m) :
      Act env (List Frame)) s := by
  cases m with
  | basicGet name noAck =>
    change ¬ Somewhere (HandsOut env queue) (basicGet connId name noAck : Act env (List Frame)) s
    rw [hands_basicGet]
    rintro ⟨rfl, front⟩
    cases permitted with
    | inl allowed =>
      rw [refused] at allowed
      cases allowed
    | inr empty => exact front empty
  | _ => exact nowhere_hands (fun _ _ => rfl) queue

theorem writes_method (permitted : Permitted env s connId m) {exchange : String}
    (refused : checkPermission env s connId (·.write) exchange = false) :
    ¬ Somewhere (PutsThrough exchange) (handle (dispatchMethod connId channel m) :
      Act env (List Frame)) s := by
  have quiet {op : Op} (pushes : ∀ queue ctx now, op.performs (.enqueue queue ctx now) = false)
      (fulls : ∀ q e rk h b, op.performs (.enqueueFull q e rk h b) = false)
      (puts : ∀ queue msg, op.performs (.pushFull queue msg) = false) :
      ¬ Somewhere (PutsThrough exchange) (handle op : Act env (List Frame)) s := by
    refine nowhere_puts ((takes_handle op).mono fun e performs => ?_) exchange
    cases e with
    | enqueue => exact absurd performs (Bool.eq_false_iff.mp (pushes _ _ _))
    | enqueueFull => exact absurd performs (Bool.eq_false_iff.mp (fulls _ _ _ _ _))
    | pushFull => exact absurd performs (Bool.eq_false_iff.mp (puts _ _))
    | _ => rfl
  cases m with
  | basicPublish args now => exact puts_basicPublish args now refused
  | txCommit =>
    change ¬ Somewhere (PutsThrough exchange) (txCommit connId : Act env (List Frame)) s
    rw [puts_txCommit]
    rintro ⟨cs, found, began, passes, routingKey, headers, body, member, known⟩
    have allowed := permitted cs found began passes exchange routingKey headers body member known
    rw [refused] at allowed
    cases allowed
  | _ => exact quiet (fun _ _ _ => rfl) (fun _ _ _ _ _ => rfl) fun _ _ => rfl

theorem configures_method (permitted : Permitted env s connId m) {name : String}
    (refused : checkPermission env s connId (·.configure) name = false) :
    (served env s (dispatchMethod connId channel m)).named name = s.named name := by
  have unallowed : ¬ checkPermission env s connId (·.configure) name = true :=
    Bool.eq_false_iff.mp refused
  have quiet {op : Op} (creates : ∀ n q l c, op.performs (.createQueue n q l c) = false)
      (removes : ∀ n, op.performs (.removeQueue n) = false)
      (declares : ∀ n k d l, op.performs (.createExchange n k d l) = false)
      (deletes : ∀ n, op.performs (.removeExchange n) = false)
      (goesOn : ∀ now auth cluster, op.performs (.restart now auth cluster) = false) :
      (served env s op).named name = s.named name := by
    refine named_of_takes ((takes_handle op).mono fun e performs => ?_) s
    cases e with
    | createQueue => exact absurd performs (Bool.eq_false_iff.mp (creates _ _ _ _))
    | removeQueue => exact absurd performs (Bool.eq_false_iff.mp (removes _))
    | createExchange => exact absurd performs (Bool.eq_false_iff.mp (declares _ _ _ _))
    | removeExchange => exact absurd performs (Bool.eq_false_iff.mp (deletes _))
    | restart => exact absurd performs (Bool.eq_false_iff.mp (goesOn _ _ _))
    | _ => rfl
  cases m with
  | queueDeclare args now => exact named_queueDeclare args now refused
  | exchangeDeclare args => exact named_exchangeDeclare args refused
  | queueDelete queue ifUnused ifEmpty noWait =>
    refine (named_queueDelete queue ifUnused ifEmpty noWait name).trans (if_neg ?_)
    rintro ⟨rfl, goes⟩
    have stays := permitted.resolve_left unallowed
    rw [goes] at stays
    cases stays
  | exchangeDelete exchange noWait =>
    refine (named_exchangeDelete exchange noWait name).trans ?_
    split
    · rename_i here
      obtain ⟨rfl, unreserved⟩ := here
      obtain reserved | missing := permitted.resolve_left unallowed
      · rw [unreserved] at reserved
        cases reserved
      · exact Prod.ext rfl missing.symm
    · rfl
  | _ => refine quiet ?_ ?_ ?_ ?_ ?_ <;> intros <;> rfl

theorem readyIn_queuePurge (queue : String) (noWait : Bool) :
    (served env s (.queuePurge queue noWait)).readyIn queue =
      (s.queues.get? queue).map fun _ => [] := by
  change ((queuePurge queue noWait : Act env (List Frame)).final s).readyIn queue = _
  unfold queuePurge BrokerState.readyIn
  rw [final_bind, final_look, result_look]
  cases found : s.queues.get? queue with
  | none => exact congrArg _ found
  | some q =>
    change ((s.queues.modify queue _).get? queue).map _ = _
    rw [FinMap.get?_modify, if_pos rfl, found]
    rfl

theorem purges_method (permitted : Permitted env s connId m) {queue : String} {noWait : Bool}
    (purge : m = .queuePurge queue noWait)
    (refused : checkPermission env s connId (·.read) queue = false) :
    (served env s (dispatchMethod connId channel m)).readyIn queue = s.readyIn queue := by
  subst purge
  refine (readyIn_queuePurge queue noWait).trans ?_
  have empty := permitted.resolve_left (Bool.eq_false_iff.mp refused)
  unfold BrokerState.readyIn
  cases found : s.queues.get? queue with
  | none => rfl
  | some q => rw [Option.map_some, Option.map_some, empty q found]

theorem enforces_of_permitted (permitted : Permitted env s connId m) :
    Enforces env s connId channel m where
  hands _ refused := hands_method permitted refused
  answers queue noAck get refused := by
    subst get
    exact (answers_basicGet queue noAck).mpr (permitted.resolve_left (Bool.eq_false_iff.mp refused))
  subscribes _ _ own refused listed := subscribes_method own refused listed
  purges _ _ purge refused := purges_method permitted purge refused
  configures _ refused := configures_method permitted refused
  writes _ refused := writes_method permitted refused

theorem permitted_of_enforces (enforces : Enforces env s connId channel m) :
    Permitted env s connId m := by
  cases m with
  | basicGet queue noAck =>
    refine or_iff_not_imp_left.mpr fun unallowed => ?_
    have refused := Bool.eq_false_iff.mpr unallowed
    exact (answers_basicGet queue noAck).mp (enforces.answers queue noAck rfl refused)
  | queuePurge queue noWait =>
    refine or_iff_not_imp_left.mpr fun unallowed q found => ?_
    have same := enforces.purges queue noWait rfl (Bool.eq_false_iff.mpr unallowed)
    have purged := (readyIn_queuePurge queue noWait).symm.trans same
    rw [BrokerState.readyIn, found] at purged
    exact (Option.some.inj purged).symm
  | queueDelete queue ifUnused ifEmpty noWait =>
    refine or_iff_not_imp_left.mpr fun unallowed => ?_
    have same := enforces.configures queue (Bool.eq_false_iff.mpr unallowed)
    have named := (named_queueDelete queue ifUnused ifEmpty noWait queue).symm.trans same
    by_contra goes
    rw [if_pos ⟨rfl, Bool.eq_true_of_not_eq_false goes⟩] at named
    have missing : false = s.queues.contains queue := congrArg Prod.fst named
    unfold BrokerState.deletes at goes
    rw [Option.isNone_iff_eq_none.mp (Option.isSome_eq_false_iff.mp missing.symm)] at goes
    exact goes rfl
  | exchangeDelete exchange noWait =>
    refine or_iff_not_imp_left.mpr fun unallowed => ?_
    have same := enforces.configures exchange (Bool.eq_false_iff.mpr unallowed)
    have named := (named_exchangeDelete exchange noWait exchange).symm.trans same
    cases reserved : "amq.".isPrefixOf exchange with
    | true => exact .inl rfl
    | false =>
      rw [if_pos ⟨rfl, reserved⟩] at named
      exact .inr (congrArg Prod.snd named).symm
  | txCommit =>
    intro cs found began passes exchange routingKey headers body member known
    by_contra unallowed
    refine enforces.writes exchange (Bool.eq_false_iff.mpr unallowed) ?_
    exact (puts_txCommit exchange).mpr
      ⟨cs, found, began, passes, routingKey, headers, body, member, known⟩
  | _ => trivial

end

/-- In any run, from any state, the permissions are enforced exactly if the methods that do
    not ask for them are permitted. -/
theorem permissions_enforced_iff (env : Env) (s : BrokerState) (inputs : List Input) :
    Along (fun s i => served env s i.op) (EnforcesAt env) s inputs ↔
      Along (fun s i => served env s i.op) (PermittedAt env) s inputs := by
  refine along_congr (along_true s inputs) fun s i _ => ?_
  cases i with
  | method connId channel m => exact ⟨permitted_of_enforces, enforces_of_permitted⟩
  | event op =>
    refine iff_of_true ?_ trivial
    cases op with
    | deliverRound queue answers now =>
      intro connId channel tag m sent
      obtain ⟨c, active, same⟩ := listed_of_delivered sent
      exact ⟨c, lists_iff.mpr (.inr active), same⟩
    | _ => trivial

def guestAndWriter : AuthBackend := guestOnly.insert ("writer", "/") ⟨"", ".*", ""⟩

/-- The first user's queue with a message, and a connection of the other one. -/
def writerJoined : BrokerState := reached (plainEnv 64 1) guestAndWriter none
  (session "q" ++ [publishTo "q" false [7], .connect "127.0.0.1:50001" "writer" "/",
    .channelOpen 2 1])

/-- The writer reads. -/
theorem writer_reads : ¬ Along (fun s i => served (plainEnv 64 1) s i.op)
    (EnforcesAt (plainEnv 64 1)) writerJoined [.method 2 1 (.basicGet "q" true)] := by
  intro along
  have refused : checkPermission (plainEnv 64 1) writerJoined 2 (·.read) "q" = false := by
    decide +kernel
  have got : answer (plainEnv 64 1) writerJoined (.basicGet 2 "q" true) =
      [.basicGetOk 1 false "" "q" 0 [7]] := by
    decide +kernel
  have silent := along.1.answers "q" true rfl refused _ (got ▸ List.mem_singleton_self _)
  cases silent

end RocketmqBroker
