import RocketmqBroker.Broker.Step

/-!
What each request can do: the kinds of effects that its handler may have, whatever the
outcome. Bookkeeping aside, most requests have one kind of effect or none.
-/
namespace RocketmqBroker
open Run.Program

def Op.performs (op : Op) (e : Effect) : Bool :=
  (e matches .books _) || match op with
  | .exchangeDeclare .. | .createExchangeVhost .. | .clusterDeclareExchange .. =>
    (e matches .createExchange ..)
  | .exchangeDelete .. | .deleteExchangeVhost .. => (e matches .removeExchange ..)
  | .exchangeBind .. | .queueBind .. | .clusterBindQueue .. => (e matches .bind ..)
  | .createBindingEq .. => (e matches .appendBinding ..)
  | .exchangeUnbind .. | .queueUnbind .. | .deleteBindingEq .. => (e matches .unbind ..)
  | .queueDeclare .. => (e matches .alloc | .createQueue .. | .tune .. | .bind ..)
  | .clusterDeclareQueue .. => (e matches .createQueue .. | .bind ..)
  | .createQueueVhost .. => (e matches .createQueue ..)
  | .queueDelete .. | .deleteQueue .. | .clusterDeleteQueue .. | .queueTtlTask .. =>
    (e matches .removeQueue ..)
  | .disconnect .. => (e matches .removeQueue .. | .requeue .. | .tuneAll ..)
  | .queuePurge .. | .purgeQueue .. | .clusterPurgeQueue .. => (e matches .purge ..)
  | .basicPublish .. => (e matches .popOldest .. | .enqueue ..)
  | .basicConsume .. => (e matches .tune ..)
  | .basicAck .. => (e matches .settle ..)
  | .basicReject .. | .basicNack .. => (e matches .requeue .. | .discard ..)
  | .basicGet .. | .getMessages .. | .messageTtlTask .. => (e matches .pop ..)
  | .txCommit .. => (e matches .enqueueFull .. | .settle ..)
  | .deliverRound .. => (e matches .pop .. | .tune ..)
  | .publishMessage .. => (e matches .alloc | .pushFull ..)
  | .replicatePublish .. => (e matches .replicatePublish ..)
  | .replicateAck .. => (e matches .replicateAck ..)
  | .walCompactTask => (e matches .compact)
  | .restart .. => (e matches .restart ..)
  | _ => false

def BrokerState.Buffers (s : BrokerState) (p : PendingOp) : Prop :=
  ∃ connId cs, s.connState.get? connId = some cs ∧ p ∈ cs.txBuffer

def QueueState.HasTag (q : QueueState) (tag : String) : Prop :=
  (q.consumerTags.get? tag).isSome = true ∨ ∃ c ∈ q.activeConsumers, c.tag = tag

def Op.pending? : Op → Option PendingOp
  | .basicPublish _ _ args _ =>
    some (.publish args.exchange args.routingKey args.properties.encode args.body)
  | _ => none

def Op.ChoosesTag (op : Op) (tag : String) : Prop :=
  match op with
  | .basicConsume connId _ args =>
    tag = args.consumerTag ∨ ∃ seq : UInt64, tag = "ctag-" ++ toString connId ++ "-" ++ toString seq
  | _ => False

def Bookkeeping.BuffersOnly (b : Bookkeeping) (new : Option PendingOp) : Prop :=
  ∀ s p, (b.apply s).Buffers p → s.Buffers p ∨ new = some p

def Op.Brings (op : Op) : Effect → Prop
  | .books b => b.BuffersOnly op.pending?
  | .tune _ t => ∀ q tag, (t.apply q).HasTag tag → q.HasTag tag ∨ op.ChoosesTag tag
  | .tuneAll t => ∀ q tag, (t.apply q).HasTag tag → q.HasTag tag ∨ op.ChoosesTag tag
  | .createQueue _ q _ _ => ∀ tag, ¬ q.state.HasTag tag
  | .enqueue _ ctx _ => ∃ connId channel args now,
    op = .basicPublish connId channel args now ∧ ctx = args.ctx
  | .pushFull _ m => ∃ exchange routingKey payload id,
    op = .publishMessage exchange routingKey payload ∧
      m = .newRouted id [] payload exchange routingKey
  | _ => True

theorem buffersOnly_of_connState {b : Bookkeeping} {new : Option PendingOp}
    (same : ∀ s, (b.apply s).connState = s.connState) : b.BuffersOnly new := by
  rintro s p ⟨connId, cs, found, member⟩
  rw [same] at found
  exact .inl ⟨connId, cs, found, member⟩

theorem buffersOnly_modifyConn {b : Bookkeeping} {new : Option PendingOp} {connId : UInt64}
    {f : ConnectionState → ConnectionState} (changes : ∀ s, b.apply s = s.modifyConn connId f)
    (still : ∀ cs p, p ∈ (f cs).txBuffer → p ∈ cs.txBuffer ∨ new = some p) :
    b.BuffersOnly new := by
  rintro s p ⟨c, cs', found, member⟩
  rw [changes, BrokerState.modifyConn, FinMap.get?_modify] at found
  split at found
  · rename_i same
    obtain ⟨cs, there, rfl⟩ := Option.map_eq_some_iff.mp found
    exact (still cs p member).imp_left fun old => ⟨connId, cs, there, old⟩
  · exact .inl ⟨c, cs', found, member⟩

theorem buffersOnly_modifyChannel {b : Bookkeeping} {new : Option PendingOp} {connId : UInt64}
    {channel : UInt16} {f : ChannelState → ChannelState}
    (changes : ∀ s, b.apply s = s.modifyChannel connId channel f) : b.BuffersOnly new :=
  buffersOnly_modifyConn changes fun _ _ member => .inl member

theorem buffersOnly_dropConnection (connId : UInt64) {new : Option PendingOp} :
    (Bookkeeping.dropConnection connId).BuffersOnly new := by
  rintro s p ⟨c, cs, found, member⟩
  change (s.connState.erase connId).get? c = some cs at found
  rw [FinMap.get?_erase] at found
  split at found
  · cases found
  · exact .inl ⟨c, cs, found, member⟩

theorem not_hasTag {q : QueueState} (tags : q.consumerTags = ∅) (active : q.activeConsumers = [])
    (tag : String) : ¬ q.HasTag tag := by
  rintro (registered | ⟨c, member, -⟩)
  · rw [tags] at registered
    cases registered
  · rw [active] at member
    cases member

section
variable {env : Env} {kind : Effect → Prop}

theorem takes_change {b : Bookkeeping} (here : kind (.books b)) :
    Takes kind (change b : Act env Unit) := takes_perform here

theorem takes_silent {α : Type} {p : Act env α} (takes : Takes kind p) :
    Takes kind (silent p) := takes.bind fun _ => takes_pure _

/-! Parts that several handlers share. -/

theorem takes_removeQueues (removes : ∀ name, kind (.removeQueue name)) (names : List String) :
    Takes kind (removeQueues names : Act env Unit) :=
  Takes.forM names fun name => takes_perform (removes name)

theorem takes_evictOverflow {queue : String} (evicts : kind (.popOldest queue))
    (maxLen fuel : Nat) : Takes kind (evictOverflow queue maxLen fuel : Act env Unit) := by
  induction fuel with
  | zero => exact takes_pure _
  | succ fuel ih =>
    refine (takes_read _).bind fun tooLong => ?_
    split
    · exact Takes.bind (takes_perform evicts) fun _ => ih
    · exact takes_pure _

theorem takes_enqueueSingle {queue : String} {ctx : EnqueueCtx} {now : Instant}
    (evicts : kind (.popOldest queue)) (enqueues : kind (.enqueue queue ctx now)) :
    Takes kind (enqueueSingle queue ctx now : Act env Unit) := by
  refine (takes_read _).bind fun found => ?_
  split
  · exact takes_perform enqueues
  · split
    · exact (takes_evictOverflow evicts _ _).bind fun _ => takes_perform enqueues
    · exact takes_perform enqueues

theorem takes_declareSchema {name : String} (tunes : ∀ t : Tuning,
      (∀ q tag, (t.apply q).HasTag tag → q.HasTag tag) → kind (.tune name t))
    (arguments : FieldTable) (compiled : Option CompiledSchema) :
    Takes kind (declareSchema name arguments compiled : Act env (Option String)) := by
  unfold declareSchema
  split
  · exact Takes.bind (takes_perform (tunes _ fun _ _ tagged => tagged)) fun _ => takes_pure _
  · split
    · exact takes_pure _
    · refine (takes_read _).bind fun conflict => ?_
      split
      · exact takes_pure _
      · exact Takes.bind (takes_perform (tunes _ fun _ _ tagged => tagged)) fun _ => takes_pure _

theorem takes_sendDeclareOk (name : String) (noWait : Bool) :
    Takes kind (sendDeclareOk name noWait : Act env (List Frame)) := by
  unfold sendDeclareOk
  split
  · exact takes_pure _
  · exact takes_read _

variable {new : Option PendingOp} (books : ∀ b : Bookkeeping, b.BuffersOnly new → kind (.books b))
include books

theorem takes_takeDelivery (tag : UInt64) :
    Takes kind (takeDelivery tag : Act env (Option String)) :=
  (takes_read _).bind fun _ => (takes_change (books _ (buffersOnly_of_connState fun _ => rfl))).bind
    fun _ => takes_read _

theorem takes_resolveNegativeDelivery (requeues : ∀ queue tag counted,
    kind (.requeue queue tag counted)) (discards : ∀ queue tag, kind (.discard queue tag))
    (connId tag : UInt64) (requeue : Bool) :
    Takes kind (resolveNegativeDelivery connId tag requeue : Act env Unit) := by
  refine (takes_takeDelivery books tag).bind fun found => ?_
  cases found with
  | none => exact takes_pure _
  | some queue =>
    refine (takes_change (books _ (buffersOnly_of_connState fun _ => rfl))).bind fun _ => ?_
    cases requeue with
    | true => exact takes_perform (requeues _ _ _)
    | false => exact takes_perform (discards _ _)

theorem takes_allocConfirmTag (connId : UInt64) (channel : UInt16) :
    Takes kind (allocConfirmTag connId channel : Act env (Option UInt64)) := by
  refine (takes_read _).bind fun found => ?_
  split
  · exact takes_pure _
  · split
    · exact takes_pure _
    · refine Takes.bind (takes_change (books _ ?_)) fun _ => takes_pure _
      exact buffersOnly_modifyConn (fun _ => rfl) fun _ _ member => .inl member

theorem takes_bufferTxPublish (connId : UInt64) (args : PublishArgs)
    (pending : new = some
      (.publish args.exchange args.routingKey args.properties.encode args.body)) :
    Takes kind (bufferTxPublish connId args : Act env Bool) := by
  refine (takes_read _).bind fun txMode => ?_
  split
  · refine Takes.bind (takes_change (books _ ?_)) fun _ => takes_pure _
    refine buffersOnly_modifyConn (fun _ => rfl) fun cs p member => ?_
    cases List.mem_append.mp member with
    | inl old => exact .inl old
    | inr last =>
      rw [List.mem_singleton.mp last]
      exact .inr pending
  · exact takes_pure _

theorem takes_drainTxBuffer (connId : UInt64) :
    Takes kind (drainTxBuffer connId : Act env (Option (List PendingOp))) := by
  refine (takes_read _).bind fun found => ?_
  split
  · exact takes_pure _
  · refine (takes_change (books _ ?_)).bind fun _ => takes_pure _
    exact buffersOnly_modifyConn (fun _ => rfl) fun _ _ none_left =>
      absurd none_left List.not_mem_nil

theorem takes_applyTxOp {op : PendingOp} (pushes : ∀ exchange routingKey headers body,
      op = .publish exchange routingKey headers body →
        kind (.enqueueFull routingKey exchange routingKey headers body))
    (settles : ∀ queue tag, kind (.settle queue tag)) (connId : UInt64) :
    Takes kind (applyTxOp connId op : Act env Unit) := by
  cases op with
  | publish exchange routingKey headers body => exact takes_perform (pushes _ _ _ _ rfl)
  | ack msgId =>
    refine (takes_takeDelivery books msgId).bind fun found => ?_
    cases found with
    | none => exact takes_pure _
    | some queue =>
      refine Takes.bind (takes_perform (settles queue msgId)) fun _ => ?_
      exact takes_change (books _ (buffersOnly_of_connState fun _ => rfl))

theorem takes_acceptTerm (term leaderId : UInt64) :
    Takes kind (acceptTerm term leaderId : Act env Bool) := by
  refine (takes_read _).bind fun found => ?_
  split
  · exact takes_pure _
  · split
    · exact takes_pure _
    · split
      · exact (takes_change (books _ (buffersOnly_of_connState fun _ => rfl))).bind fun _ =>
          takes_pure _
      · exact takes_pure _

theorem takes_compileQueueSchema (opts : QueueOptions) :
    Takes kind
      (compileQueueSchema opts : Act env (Except SchemaError (Option CompiledSchema))) := by
  unfold compileQueueSchema
  split
  · exact takes_pure _
  · dsimp only
    split
    · exact takes_pure _
    · split
      · exact takes_pure _
      · refine (takes_read _).bind fun found => ?_
        refine (takes_change (books _ (buffersOnly_of_connState fun _ => rfl))).bind fun _ => ?_
        split <;> exact takes_pure _

theorem takes_declareActive {name : String} (tunes : ∀ t : Tuning,
      (∀ q tag, (t.apply q).HasTag tag → q.HasTag tag) → kind (.tune name t))
    (creates : ∀ q logs schema, (∀ tag, ¬ q.state.HasTag tag) →
      kind (.createQueue name q logs schema))
    (binds : kind (.bind "" ⟨name, name, none⟩ false)) (connId : UInt64) (args : QueueDeclareArgs)
    (now : Instant) : Takes kind (declareActive connId name args now : Act env (List Frame)) := by
  refine (takes_read _).bind fun found => ?_
  dsimp only
  split
  · exact takes_pure _
  · refine (takes_compileQueueSchema books _).bind fun result => ?_
    split
    · exact takes_pure _
    · have declared (compiled : Option CompiledSchema)
          {rest : Option String → Act env (List Frame)}
          (refused : ∀ text, Takes kind (rest (some text))) (bound : Takes kind (rest none)) :
          Takes kind (declareSchema name args.arguments compiled >>= rest) := by
        refine (takes_declareSchema tunes args.arguments compiled).bind fun failed => ?_
        cases failed with
        | some text => exact refused text
        | none => exact bound
      have bound : Takes kind (do
          perform (.bind "" ⟨name, name, none⟩ false)
          sendDeclareOk name args.noWait : Act env (List Frame)) :=
        Takes.bind (takes_perform binds) fun _ => takes_sendDeclareOk name args.noWait
      split
      · refine Takes.bind (takes_perform (creates _ _ _ (not_hasTag rfl rfl))) fun _ => ?_
        split
        · refine (takes_change (books _ (buffersOnly_of_connState fun _ => rfl))).bind fun _ => ?_
          exact declared _ (fun _ => takes_pure _) bound
        · exact declared _ (fun _ => takes_pure _) bound
      · exact declared _ (fun _ => takes_pure _) bound

theorem takes_anyDeclare (allocs : kind .alloc) (tunes : ∀ name, ∀ t : Tuning,
      (∀ q tag, (t.apply q).HasTag tag → q.HasTag tag) → kind (.tune name t))
    (creates : ∀ name q logs schema, (∀ tag, ¬ q.state.HasTag tag) →
      kind (.createQueue name q logs schema))
    (binds : ∀ name, kind (.bind "" ⟨name, name, none⟩ false)) (connId : UInt64)
    (args : QueueDeclareArgs) (now : Instant) :
    Takes kind (queueDeclare connId args now : Act env (List Frame)) := by
  have named (name : String) :
      Takes kind (queueDeclare.declareNamed connId args now name : Act env (List Frame)) := by
    unfold queueDeclare.declareNamed
    split
    · refine (takes_read _).bind fun known => ?_
      split
      · exact takes_sendDeclareOk name args.noWait
      · exact takes_pure _
    · refine (takes_read _).bind fun refused => ?_
      split
      · exact takes_pure _
      · exact takes_declareActive books (tunes name) (creates name) (binds name) connId args now
  unfold queueDeclare
  split
  · exact (takes_read _).bind fun _ => Takes.bind (takes_perform allocs) fun _ => named _
  · split
    · exact takes_pure _
    · exact named _

theorem takes_validateConsumerSchema (args : ConsumeArgs) :
    Takes kind (validateConsumerSchema args : Act env (Option String)) := by
  unfold validateConsumerSchema
  split
  · exact takes_pure _
  · split
    · exact takes_pure _
    · refine (takes_read _).bind fun found => ?_
      refine (takes_change (books _ (buffersOnly_of_connState fun _ => rfl))).bind fun _ => ?_
      split
      · exact takes_pure _
      · exact (takes_read _).bind fun _ => takes_pure _

end

abbrev TakesOf {env : Env} {α : Type} (op : Op) (p : Act env α) : Prop :=
  Takes (fun e => op.performs e = true) p

abbrev BringsOf {env : Env} {α : Type} (op : Op) (p : Act env α) : Prop :=
  Takes (fun e => op.performs e = true ∧ op.Brings e) p

section
variable {env : Env}

theorem brings_aside {op : Op} {b : Bookkeeping}
    (same : ∀ s, (b.apply s).connState = s.connState) : BringsOf op (change b : Act env Unit) :=
  takes_change ⟨rfl, buffersOnly_of_connState same⟩

theorem brings_withChannel {op : Op} (connId : UInt64) (channel : UInt16)
    (f : ChannelState → ChannelState) : BringsOf op (withChannel connId channel f : Act env Unit) :=
  takes_change ⟨rfl, buffersOnly_modifyChannel fun _ => rfl⟩

theorem brings_withConnState {op : Op} (connId : UInt64) {f : ConnectionState → ConnectionState}
    (still : ∀ cs p, p ∈ (f cs).txBuffer → p ∈ cs.txBuffer) :
    BringsOf op (withConnState connId f : Act env Unit) :=
  takes_change ⟨rfl, buffersOnly_modifyConn (fun _ => rfl) fun cs p member =>
    .inl (still cs p member)⟩

/-! Exchanges and bindings. -/

theorem takes_declareActiveExchange {kind : Effect → Prop} {connId : UInt64}
    {args : ExchangeDeclareArgs} (creates : ∀ type isNew,
      kind (.createExchange args.name type args.durable (args.durable && isNew))) :
    Takes kind (declareActiveExchange connId args : Act env (Option (List Frame))) := by
  unfold declareActiveExchange
  split
  · exact Takes.bind (takes_pure _) fun _ => takes_pure _
  · refine (takes_read _).bind fun refused => ?_
    split
    · exact Takes.bind (takes_pure _) fun _ => takes_pure _
    · split
      · exact Takes.bind (takes_pure _) fun _ => takes_pure _
      · exact (takes_read _).bind fun _ => Takes.bind (takes_perform (creates _ _)) fun _ =>
          takes_pure _

theorem takes_exchangeDeclare (connId : UInt64) (args : ExchangeDeclareArgs) :
    BringsOf (.exchangeDeclare connId args)
      (exchangeDeclare connId args : Act env (List Frame)) := by
  unfold exchangeDeclare
  split
  · refine (takes_read _).bind fun known => ?_
    split <;> exact takes_pure _
  · refine Takes.bind (takes_declareActiveExchange fun _ _ => ⟨rfl, trivial⟩) fun failed => ?_
    cases failed <;> exact takes_pure _

theorem takes_exchangeDelete (name : String) (noWait : Bool) :
    BringsOf (.exchangeDelete name noWait)
      (exchangeDelete name noWait : Act env (List Frame)) := by
  unfold exchangeDelete
  split
  · exact takes_pure _
  · exact Takes.bind (takes_perform ⟨rfl, trivial⟩) fun _ => takes_pure _

theorem takes_queueBind (queue exchange routingKey : String) (noWait : Bool) :
    BringsOf (.queueBind queue exchange routingKey noWait)
      (queueBind queue exchange routingKey noWait : Act env (List Frame)) := by
  refine (takes_read _).bind fun known => ?_
  split
  · exact takes_pure _
  · refine (takes_read _).bind fun known => ?_
    split
    · exact takes_pure _
    · exact Takes.bind (takes_perform ⟨rfl, trivial⟩) fun _ => takes_pure _

theorem takes_queueUnbind (queue exchange routingKey : String) :
    BringsOf (.queueUnbind queue exchange routingKey)
      (queueUnbind queue exchange routingKey : Act env (List Frame)) := by
  refine (takes_read _).bind fun known => ?_
  split
  · exact takes_pure _
  · refine (takes_read _).bind fun known => ?_
    split
    · exact takes_pure _
    · exact Takes.bind (takes_perform ⟨rfl, trivial⟩) fun _ => takes_pure _

theorem takes_clusterDeclareExchange (name kind : String) (durable : Bool) :
    BringsOf (.clusterDeclareExchange name kind durable)
      (clusterDeclareExchange name kind durable : Act env (List Frame)) := by
  unfold clusterDeclareExchange
  split
  · exact Takes.bind (takes_perform ⟨rfl, trivial⟩) fun _ => takes_pure _
  · exact takes_pure _

/-! Queues. -/

theorem takes_queueDeclare (connId : UInt64) (args : QueueDeclareArgs) (now : Instant) :
    BringsOf (.queueDeclare connId args now)
      (queueDeclare connId args now : Act env (List Frame)) := by
  refine takes_anyDeclare (fun _ only => ⟨rfl, only⟩) ⟨rfl, trivial⟩ (fun _ t still => ⟨rfl, ?_⟩)
    (fun _ _ _ _ unused => ⟨rfl, unused⟩) (fun _ => ⟨rfl, trivial⟩) connId args now
  exact fun q tag tagged => .inl (still q tag tagged)

theorem takes_clusterDeclareQueue (name : String) (durable exclusive autoDelete : Bool)
    (queueType : String) (now : Instant) :
    BringsOf (.clusterDeclareQueue name durable exclusive autoDelete queueType now)
      (clusterDeclareQueue name durable exclusive autoDelete queueType now :
        Act env (List Frame)) := by
  refine (takes_read _).bind fun known => ?_
  split
  · refine Takes.bind (takes_perform ⟨rfl, not_hasTag rfl rfl⟩) fun _ => ?_
    exact Takes.bind (takes_perform ⟨rfl, trivial⟩) fun _ => takes_pure _
  · exact takes_pure _

theorem takes_queueDelete (connId : UInt64) (name : String) (ifUnused ifEmpty noWait : Bool) :
    BringsOf (.queueDelete connId name ifUnused ifEmpty noWait)
      (queueDelete connId name ifUnused ifEmpty noWait : Act env (List Frame)) := by
  refine (takes_read _).bind fun found => ?_
  split
  · exact takes_pure _
  · split
    · exact takes_pure _
    · split
      · exact takes_pure _
      · exact Takes.bind (takes_perform ⟨rfl, trivial⟩) fun _ =>
          Takes.bind (brings_aside fun _ => rfl) fun _ => takes_pure _

theorem takes_queuePurge (name : String) (noWait : Bool) :
    BringsOf (.queuePurge name noWait) (queuePurge name noWait : Act env (List Frame)) := by
  refine (takes_read _).bind fun found => ?_
  split
  · exact takes_pure _
  · exact Takes.bind (takes_perform ⟨rfl, trivial⟩) fun _ => takes_pure _

theorem takes_purgeQueue (name : String) :
    BringsOf (.purgeQueue name) (purgeQueue name : Act env (List Frame)) := by
  refine (takes_read _).bind fun found => ?_
  split
  · exact takes_pure _
  · exact Takes.bind (takes_perform ⟨rfl, trivial⟩) fun _ => takes_pure _

/-! Connections. -/

theorem dropListeners_tags (connId : UInt64) {op : Op} :
    op.Brings (.tuneAll (dropListeners connId)) := by
  intro q tag tagged
  left
  refine tagged.imp_left fun registered => ?_
  change ((q.consumerTags.retain fun _ c => c.1 != connId).get? tag).isSome = true at registered
  rw [FinMap.get?_retain] at registered
  obtain ⟨c, found⟩ := Option.isSome_iff_exists.mp registered
  exact Option.isSome_iff_exists.mpr ⟨c, (Option.filter_eq_some_iff.mp found).1⟩

theorem takes_connect (addr username vhost : String) :
    BringsOf (.connect addr username vhost) (connect addr username vhost : Act env UInt64) := by
  refine (takes_read _).bind fun connId => Takes.bind (takes_change ⟨rfl, ?_⟩) fun _ => takes_pure _
  rintro s p ⟨c, cs, found, member⟩
  change (s.connState.insert connId _).get? c = some cs at found
  rw [FinMap.get?_insert] at found
  split at found
  · obtain rfl := Option.some.inj found
    exact absurd member List.not_mem_nil
  · exact .inl ⟨c, cs, found, member⟩

theorem takes_removeConnection (connId : UInt64) :
    BringsOf (.disconnect connId) (removeConnection connId : Act env Unit) := by
  have requeued (delivery : String × UInt64) : BringsOf (.disconnect connId)
      (requeueDelivery delivery : Act env Unit) :=
    Takes.bind (brings_aside fun _ => rfl) fun _ => takes_perform ⟨rfl, trivial⟩
  refine Takes.bind (takes_change ⟨rfl, buffersOnly_dropConnection connId⟩) fun _ => ?_
  refine (takes_read _).bind fun exclusive => Takes.bind (brings_aside fun _ => rfl) fun _ => ?_
  refine (takes_removeQueues (fun _ => ⟨rfl, trivial⟩) exclusive).bind fun _ => ?_
  refine (takes_read _).bind fun deliveries => Takes.bind (brings_aside fun _ => rfl) fun _ => ?_
  refine (Takes.forM deliveries requeued).bind fun _ => (takes_read _).bind fun tags => ?_
  refine Takes.bind (brings_aside fun _ => rfl) fun _ => ?_
  refine Takes.bind (takes_perform ⟨rfl, dropListeners_tags connId⟩) fun _ => ?_
  refine (takes_read _).bind fun owned => ?_
  refine (takes_removeQueues (fun _ => ⟨rfl, trivial⟩) owned).bind fun _ =>
    (takes_read _).bind fun unused => ?_
  exact takes_removeQueues (fun _ => ⟨rfl, trivial⟩) unused

theorem takes_closeConnection (connId : UInt64) :
    BringsOf (.closeConnection connId) (closeConnection connId : Act env (List Frame)) := by
  refine (takes_read _).bind fun known => ?_
  split
  · refine Takes.bind (takes_change ⟨rfl, ?_⟩) fun _ => takes_pure _
    exact buffersOnly_dropConnection connId
  · exact takes_pure _

theorem takes_txCommit (connId : UInt64) :
    BringsOf (.txCommit connId) (txCommit connId : Act env (List Frame)) := by
  have applied (op : PendingOp) : BringsOf (.txCommit connId)
      (applyTxOp connId op : Act env Unit) :=
    takes_applyTxOp (fun _ only => ⟨rfl, only⟩) (fun _ _ _ _ _ => ⟨rfl, trivial⟩)
      (fun _ _ => ⟨rfl, trivial⟩) connId
  refine (takes_drainTxBuffer (fun _ only => ⟨rfl, only⟩) connId).bind fun drained => ?_
  split
  · exact takes_pure _
  · refine (takes_read _).bind fun failure => ?_
    split
    · exact takes_pure _
    · exact (Takes.forM _ applied).bind fun _ => takes_pure _

theorem takes_txRollback (connId : UInt64) :
    BringsOf (.txRollback connId) (txRollback connId : Act env (List Frame)) := by
  refine (takes_drainTxBuffer (fun _ only => ⟨rfl, only⟩) connId).bind fun drained => ?_
  split <;> exact takes_pure _

/-! Messages. -/

theorem takes_basicPublish (connId : UInt64) (channel : UInt16) (args : PublishArgs)
    (now : Instant) :
    BringsOf (.basicPublish connId channel args now)
      (basicPublish connId channel args now : Act env (List Frame)) := by
  refine (takes_read _).bind fun refused => ?_
  split
  · exact takes_pure _
  · refine (takes_allocConfirmTag (fun _ only => ⟨rfl, only⟩) connId channel).bind fun tag => ?_
    refine (takes_bufferTxPublish (fun _ only => ⟨rfl, only⟩) connId args rfl).bind
      fun buffered => ?_
    split
    · exact takes_pure _
    · refine (takes_read _).bind fun found => ?_
      split
      · exact takes_pure _
      · dsimp only
        split
        · exact takes_pure _
        · refine (takes_read _).bind fun failure => ?_
          split
          · exact Takes.bind (takes_pure _) fun _ => takes_pure _
          · refine (Takes.forM _ fun queue => ?_).bind fun _ => takes_pure _
            exact takes_enqueueSingle ⟨rfl, trivial⟩ ⟨rfl, _, _, _, _, rfl, rfl⟩

theorem addConsumer_hasTag {q : QueueState} {connId : UInt64} {channel : UInt16} {tag t : String}
    {noAck : Bool} (tagged : (q.addConsumer connId channel tag noAck).HasTag t) :
    q.HasTag t ∨ t = tag := by
  have registered :
      ((q.consumerTags.insert tag (connId, channel, noAck)).get? t).isSome = true := by
    cases tagged with
    | inl here => exact here
    | inr active =>
      obtain ⟨c, member, rfl⟩ := active
      obtain ⟨e, entry, rfl⟩ := List.mem_map.mp member
      exact Option.isSome_iff_exists.mpr ⟨e.2, FinMap.get?_eq_some_iff_mem.mpr entry⟩
  rw [FinMap.get?_insert] at registered
  split at registered
  · rename_i same
    exact .inr same
  · exact .inl (.inl registered)

theorem takes_assignTag (connId : UInt64) (channel : UInt16) (args : ConsumeArgs) :
    BringsOf (.basicConsume connId channel args)
      (basicConsume.assignTag connId args : Act env String) := by
  unfold basicConsume.assignTag
  split
  · exact (takes_read _).bind fun _ => Takes.bind (brings_aside fun _ => rfl) fun _ => takes_pure _
  · exact takes_pure _

theorem assignTag_chooses (connId : UInt64) (channel : UInt16) (args : ConsumeArgs)
    (s : BrokerState) : (Op.basicConsume connId channel args).ChoosesTag
      ((basicConsume.assignTag connId args : Act env String).result s) := by
  unfold basicConsume.assignTag
  split
  · exact .inr ⟨s.nextConsumerTag, rfl⟩
  · exact .inl rfl

theorem takes_basicConsume (connId : UInt64) (channel : UInt16) (args : ConsumeArgs) :
    BringsOf (.basicConsume connId channel args)
      (basicConsume connId channel args : Act env (List Frame)) := by
  refine (takes_read _).bind fun busy => (takes_read _).bind fun refused => ?_
  split
  · exact takes_pure _
  · split
    · exact takes_pure _
    · refine (takes_validateConsumerSchema (fun _ only => ⟨rfl, only⟩) args).bind fun failure => ?_
      split
      · exact takes_pure _
      · refine (takes_read _).bind fun known => ?_
        split
        · exact takes_pure _
        · refine Takes.bind_result (takes_assignTag connId channel args)
            (assignTag_chooses connId channel args) fun tag chosen => ?_
          refine Takes.bind (takes_perform ⟨rfl, ?_⟩) fun _ => ?_
          · intro q t tagged
            refine (addConsumer_hasTag tagged).imp_right fun same => ?_
            rw [same]
            exact chosen
          · exact Takes.bind (brings_aside fun _ => rfl) fun _ => takes_pure _

theorem takes_basicAck (connId : UInt64) (channel : UInt16) (tag : UInt64) :
    BringsOf (.basicAck connId channel tag)
      (basicAck connId channel tag : Act env (List Frame)) := by
  refine Takes.bind (brings_withChannel connId channel _) fun _ => ?_
  refine (takes_takeDelivery (fun _ only => ⟨rfl, only⟩) tag).bind fun found => ?_
  cases found with
  | none => exact takes_pure _
  | some queue =>
    exact Takes.bind (takes_perform ⟨rfl, trivial⟩) fun _ =>
      Takes.bind (brings_aside fun _ => rfl) fun _ => takes_pure _

theorem takes_basicGet (connId : UInt64) (queue : String) (noAck : Bool) :
    BringsOf (.basicGet connId queue noAck)
      (basicGet connId queue noAck : Act env (List Frame)) := by
  refine (takes_read _).bind fun found => ?_
  split
  · exact takes_pure _
  · split
    · exact takes_pure _
    · refine (takes_read _).bind fun resolved => ?_
      split
      · exact Takes.bind (takes_perform ⟨rfl, trivial⟩) fun _ => takes_pure _
      · split
        · exact Takes.bind (takes_perform ⟨rfl, trivial⟩) fun _ => takes_pure _
        · refine Takes.bind (takes_perform ⟨rfl, trivial⟩) fun _ => ?_
          exact Takes.bind (brings_aside fun _ => rfl) fun _ => takes_pure _

theorem takes_deliverOne (queue : String) (answers : List Bool) (now : Instant)
    (consumers : List Consumer) (taken : Bool) :
    BringsOf (.deliverRound queue answers now)
      (deliverOne queue consumers taken now : Act env (Bool × Bool × List Frame)) := by
  have picked : BringsOf (.deliverRound queue answers now)
      (nextReadyConsumer queue consumers : Act env (Option Consumer)) :=
    (takes_read _).bind fun _ => (takes_read _).bind fun _ =>
      Takes.bind (takes_perform ⟨rfl, fun _ _ tagged => .inl tagged⟩) fun _ => takes_pure _
  have tracked (c : Consumer) (tag : UInt64) : BringsOf (.deliverRound queue answers now)
      (trackInflight queue c tag now : Act env Unit) :=
    Takes.bind (takes_perform ⟨rfl, trivial⟩) fun _ => (takes_read _).bind fun _ =>
      Takes.bind (brings_aside fun _ => rfl) fun _ =>
        Takes.bind (takes_perform ⟨rfl, fun _ _ tagged => .inl tagged⟩) fun _ =>
          brings_withChannel _ _ _
  refine (takes_read _).bind fun peeked => ?_
  split
  · exact takes_pure _
  · refine picked.bind fun consumer => ?_
    split
    · exact takes_pure _
    · refine (takes_read _).bind fun resolved => ?_
      split
      · exact Takes.bind (takes_perform ⟨rfl, trivial⟩) fun _ => takes_pure _
      · refine (takes_read _).bind fun sent => ?_
        split
        · exact Takes.bind (takes_perform ⟨rfl, trivial⟩) fun _ => takes_pure _
        · split
          · exact Takes.bind (takes_perform ⟨rfl, trivial⟩) fun _ => takes_pure _
          · exact (tracked _ _).bind fun _ => takes_pure _

theorem takes_deliverRound (queue : String) (answers : List Bool) (now : Instant) :
    BringsOf (.deliverRound queue answers now)
      (deliverRound queue answers now : Act env (List Frame)) := by
  have turns (consumers : List Consumer) (given : List Bool) (delivered : Nat) :
      BringsOf (.deliverRound queue answers now)
        (deliverQueue queue consumers now given delivered : Act env (List Frame)) := by
    induction given generalizing delivered with
    | nil => exact takes_pure _
    | cons taken given ih =>
      refine (takes_deliverOne queue answers now consumers taken).bind fun r => ?_
      obtain ⟨goesOn, counts, frames⟩ := r
      dsimp only
      generalize (if counts = true then delivered + 1 else delivered) = total
      split
      · exact (ih total).bind fun _ => takes_pure _
      · exact takes_pure _
  refine (takes_read _).bind fun found => ?_
  split
  · exact takes_pure _
  · split
    · exact takes_pure _
    · exact turns _ answers 0

theorem takes_getMessages (queue : String) (count : Nat) (ackMode : String) :
    BringsOf (.getMessages queue count ackMode)
      (getMessages queue count ackMode : Act env (List Frame)) := by
  have one (requeue : Bool) : BringsOf (.getMessages queue count ackMode)
      (getMessage queue requeue : Act env (List (Bytes × Nat))) := by
    refine (takes_read _).bind fun popped => ?_
    split
    · exact takes_pure _
    · refine (takes_read _).bind fun resolved => ?_
      split
      · exact Takes.bind (takes_perform ⟨rfl, trivial⟩) fun _ => takes_pure _
      · exact Takes.bind (takes_perform ⟨rfl, trivial⟩) fun _ => takes_pure _
  refine (takes_read _).bind fun found => ?_
  split
  · exact takes_pure _
  · exact (Takes.mapM _ fun _ => one _).bind fun _ => takes_pure _

theorem takes_publishMessage (exchange routingKey : String) (payload : Bytes) :
    BringsOf (.publishMessage exchange routingKey payload)
      (publishMessage exchange routingKey payload : Act env (List Frame)) := by
  refine (takes_read _).bind fun msgId => Takes.bind (takes_perform ⟨rfl, trivial⟩) fun _ => ?_
  refine (takes_read _).bind fun found => ?_
  split
  · exact takes_pure _
  · refine Takes.bind (Takes.forM _ fun _ => takes_perform ⟨rfl, ?_⟩) fun _ => takes_pure _
    exact ⟨exchange, routingKey, payload, msgId, rfl, rfl⟩

theorem takes_replicatePublish (term leaderId : UInt64) (queue : String) (msgId : UInt64)
    (body : Bytes) :
    BringsOf (.replicatePublish term leaderId queue msgId body)
      (replicatePublish term leaderId queue msgId body : Act env (List Frame)) := by
  refine (takes_acceptTerm (fun _ only => ⟨rfl, only⟩) term leaderId).bind fun accepted => ?_
  refine (takes_read _).bind fun known => ?_
  dsimp only
  split
  · exact Takes.bind (takes_perform ⟨rfl, trivial⟩) fun _ => takes_pure _
  · exact takes_pure _

theorem takes_replicateAck (term leaderId : UInt64) (queue : String) (msgId : UInt64) :
    BringsOf (.replicateAck term leaderId queue msgId)
      (replicateAck term leaderId queue msgId : Act env (List Frame)) := by
  refine (takes_acceptTerm (fun _ only => ⟨rfl, only⟩) term leaderId).bind fun accepted => ?_
  split
  · refine (takes_read _).bind fun ready => ?_
    split
    · exact Takes.bind (takes_perform ⟨rfl, trivial⟩) fun _ => takes_pure _
    · exact takes_pure _
  · exact takes_pure _

theorem takes_messageTtlTask (now : Instant) :
    BringsOf (.messageTtlTask now) (messageTtlTask now : Act env Unit) := by
  have one (queue : String) (fuel : Nat) : BringsOf (.messageTtlTask now)
      (dropExpired queue now fuel : Act env Unit) := by
    induction fuel with
    | zero => exact takes_pure _
    | succ fuel ih =>
      refine (takes_read _).bind fun expired => ?_
      split
      · exact Takes.bind (takes_perform ⟨rfl, trivial⟩) fun _ => ih
      · exact takes_pure _
  exact (takes_read _).bind fun queues => Takes.forM queues fun e => one e.1 e.2

theorem brings_handle (op : Op) : BringsOf op (handle op : Act env (List Frame)) := by
  cases op with
  | connect addr username vhost => exact takes_silent (takes_connect addr username vhost)
  | disconnect connId => exact takes_silent (takes_removeConnection connId)
  | exchangeDeclare connId args => exact takes_exchangeDeclare connId args
  | exchangeDelete name noWait => exact takes_exchangeDelete name noWait
  | queueBind queue exchange routingKey noWait => exact takes_queueBind _ _ _ _
  | queueUnbind queue exchange routingKey => exact takes_queueUnbind _ _ _
  | queueDeclare connId args now => exact takes_queueDeclare connId args now
  | queueDelete connId name ifUnused ifEmpty noWait => exact takes_queueDelete _ _ _ _ _
  | queuePurge name noWait => exact takes_queuePurge name noWait
  | basicPublish connId channel args now => exact takes_basicPublish _ _ _ _
  | basicConsume connId channel args => exact takes_basicConsume _ _ _
  | basicAck connId channel tag => exact takes_basicAck _ _ _
  | basicReject | basicNack =>
    refine Takes.bind (brings_withChannel _ _ _) fun _ => Takes.bind ?_ fun _ => takes_pure _
    exact takes_resolveNegativeDelivery (fun _ only => ⟨rfl, only⟩) (fun _ _ _ => ⟨rfl, trivial⟩)
      (fun _ _ => ⟨rfl, trivial⟩) _ _ _
  | basicGet connId queue noAck => exact takes_basicGet _ _ _
  | basicRecover => exact takes_pure _
  | txCommit connId => exact takes_txCommit connId
  | txRollback connId => exact takes_txRollback connId
  | deliverRound queue answers now => exact takes_deliverRound _ _ _
  | purgeQueue name => exact takes_purgeQueue name
  | getMessages queue count ackMode => exact takes_getMessages _ _ _
  | publishMessage exchange routingKey payload => exact takes_publishMessage _ _ _
  | closeConnection connId => exact takes_closeConnection connId
  | clusterDeclareQueue name durable exclusive autoDelete queueType now =>
    exact takes_clusterDeclareQueue _ _ _ _ _ _
  | clusterDeclareExchange name kind durable => exact takes_clusterDeclareExchange _ _ _
  | replicatePublish term leaderId queue msgId body => exact takes_replicatePublish _ _ _ _ _
  | replicateAck term leaderId queue msgId => exact takes_replicateAck _ _ _ _
  | queueTtlTask now =>
    exact takes_silent ((takes_read _).bind fun expired =>
      takes_removeQueues (fun _ => ⟨rfl, trivial⟩) expired)
  | messageTtlTask now => exact takes_silent (takes_messageTtlTask now)
  | walCompactTask => exact takes_silent (takes_perform ⟨rfl, trivial⟩)
  | restart now auth cluster => exact takes_silent (takes_perform ⟨rfl, trivial⟩)
  | deleteExchangeVhost | deleteBindingEq | createBindingEq | deleteQueue =>
    exact (takes_read _).bind fun _ => Takes.bind (takes_perform ⟨rfl, trivial⟩) fun _ =>
      takes_pure _
  | createQueueVhost =>
    exact Takes.bind (takes_perform ⟨rfl, not_hasTag rfl rfl⟩) fun _ => takes_pure _
  | exchangeBind | exchangeUnbind | createExchangeVhost | clusterDeleteQueue
  | clusterPurgeQueue | clusterBindQueue =>
    exact Takes.bind (takes_perform ⟨rfl, trivial⟩) fun _ => takes_pure _
  | basicCancel => exact Takes.bind (brings_aside fun _ => rfl) fun _ => takes_pure _
  | channelFlow | confirmSelect =>
    exact Takes.bind (brings_withChannel _ _ _) fun _ => takes_pure _
  | channelOpen | channelClose =>
    exact Takes.bind (brings_withConnState _ fun _ _ member => member) fun _ => takes_pure _
  | basicQos connId channel prefetchCount globally =>
    refine Takes.bind (brings_withConnState connId fun cs p member => ?_) fun _ => takes_pure _
    cases globally <;> exact member
  | txSelect connId =>
    refine Takes.bind (brings_withConnState connId fun cs p none_left => ?_) fun _ => takes_pure _
    exact absurd none_left List.not_mem_nil

theorem takes_handle (op : Op) : TakesOf op (handle op : Act env (List Frame)) :=
  (brings_handle op).mono fun _ both => both.1

end

end RocketmqBroker
