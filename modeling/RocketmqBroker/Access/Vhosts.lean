import RocketmqBroker.Access.Permissions
import RocketmqBroker.Access.Sessions
import RocketmqBroker.Lib.Run
import RocketmqBroker.Publishing.Direct

/-!
Connections of different vhosts. Queues, exchanges and bindings are one set for the whole
broker, and so are the counters: a vhost only decides which permissions a user has. What a
connection is shown does not depend on another vhost as long as the requests from there come
to nothing that is shared.
-/
namespace RocketmqBroker
open Run Run.Program Unwinding

/-- The broker, and the vhost that each connection was opened on. -/
structure World where
  broker : BrokerState
  opened : FinMap UInt64 String

def Input.by? : Input → Option UInt64
  | method connId _ _ => some connId
  | event (.closeConnection _) => none
  | event op => op.connection?

def Input.receiver? (i : Input) (f : Frame) : Option UInt64 :=
  match i.by?, f with
  | some connId, _ => some connId
  | none, .basicDeliver connId .. => some connId
  | none, _ => none

namespace World
variable (env : Env)

def step (w : World) (i : Input) : World where
  broker := served env w.broker i.op
  opened := match i.op with
    | .connect _ _ vhost => w.opened.insert w.broker.nextConnId vhost
    | .restart .. => ∅
    | _ => w.opened

def isOn (w : World) (vhost : String) (connId : UInt64) : Bool :=
  w.opened.get? connId == some vhost

def comesFrom (vhost : String) (w : World) (i : Input) : Bool := i.by?.any (w.isOn vhost)

/-- What the connections of a vhost are sent, replies and deliveries. -/
def sends (vhost : String) (w : World) (i : Input) : List (UInt64 × Frame) :=
  (answer env w.broker i.op).filterMap fun f =>
    ((i.receiver? f).filter (w.isOn vhost)).map fun connId => (connId, f)

end World

def QueueOptions.refusesSchema (opts : QueueOptions) : Bool :=
  match opts.schema with
  | none => false
  | some raw => decide (opts.schemaType.getD "" ≠ "protobuf") || opts.schemaMessage.isNone ||
    (fromUtf8 raw).isNone

def ConsumeArgs.refusesSchema (args : ConsumeArgs) : Bool :=
  match args.arguments.longString? "x-consumer-schema" with
  | none => false
  | some raw => (args.arguments.longString? "x-consumer-schema-message").isNone ||
    (fromUtf8 raw).isNone

namespace BrokerState

def unlisted (s : BrokerState) (connId : UInt64) : Bool :=
  s.queues.entries.all fun e =>
    (e.2.consumerTags.entries.all fun c => c.2.1 != connId) &&
      e.2.activeConsumers.all fun c => c.connId != connId

/-- What goes with a connection: its exclusive queues, its deliveries, its consumers, and every
    queue that deletes itself and has no consumers. -/
def leavesNothing (s : BrokerState) (connId : UInt64) : Bool :=
  !s.connExclusiveQueues.contains connId && !s.connDeliveries.contains connId &&
    s.queues.entries.all fun e =>
      (e.2.consumerTags.entries.all fun c => c.2.1 != connId) &&
        (e.2.listeners.all fun l => l.1 != connId) &&
        !(e.2.options.exclusive && e.2.ownerConnId == some connId) &&
        !(e.2.options.autoDelete && e.2.listeners.isEmpty)

end BrokerState

/-- The request of a client comes to nothing that is shared: it is about its session, it is
    refused, or nothing is under the names and tags in it. -/
def Op.keepsToItself (env : Env) (s : BrokerState) : Op → Bool
  | channelOpen .. | channelClose .. | channelFlow .. | basicCancel .. | basicQos ..
  | basicRecover | txSelect _ | txRollback _ | confirmSelect .. => true
  | disconnect connId => s.leavesNothing connId
  | exchangeDeclare connId args => args.passive || "amq.".isPrefixOf args.name ||
    !checkPermission env s connId (·.configure) args.name ||
    (ExchangeType.fromStr args.kind).isNone || s.exchanges.contains args.name
  | exchangeDelete name _ => "amq.".isPrefixOf name || !s.exchanges.contains name
  | exchangeBind _ source _ _ | exchangeUnbind _ source _ => !s.exchanges.contains source
  | queueDeclare connId args _ => !args.name.isEmpty && (args.passive ||
    ("amq.".isPrefixOf args.name && !"amq.gen-".isPrefixOf args.name) ||
    !checkPermission env s connId (·.configure) args.name ||
    ((s.queues.get? args.name).any fun q => q.options.exclusive && q.ownerConnId != some connId) ||
    args.options.refusesSchema)
  | queueDelete _ name ifUnused ifEmpty _ => !s.deletes name ifUnused ifEmpty
  | queuePurge name _ => !s.queues.contains name
  | queueBind queue exchange _ _ | queueUnbind queue exchange _ =>
    !s.queues.contains queue || !s.exchanges.contains exchange
  | basicPublish connId _ args _ => !checkPermission env s connId (·.write) args.exchange ||
    s.inTx connId || (s.exchanges.get? args.exchange).all fun ex =>
      (args.targets env ex).isEmpty || (schemaFailure env s (args.targets env ex) args.body).isSome
  | basicConsume connId _ args => !checkPermission env s connId (·.read) args.queue ||
    (args.exclusive && s.hasConsumers args.queue) || args.refusesSchema ||
    ((args.arguments.longString? "x-consumer-schema").isNone && !s.queues.contains args.queue)
  | basicAck _ _ tag | basicReject _ _ tag _ | basicNack _ _ tag _ => !s.deliveryIndex.contains tag
  | basicGet _ queue _ => (s.queues.get? queue).all fun q => q.messages.popFront.isNone
  | txCommit connId => (s.connState.get? connId).all fun cs =>
    !cs.txMode || cs.txBuffer.isEmpty || (txSchemaFailure env s cs.txBuffer).isSome
  | _ => false

/-- Requests from the vhost keep to themselves, and no queue lists a consumer under the id
    that a new connection there is given. -/
def World.keepsApart (env : Env) (vhost : String) (w : World) (i : Input) : Bool :=
  if w.comesFrom vhost i then i.op.keepsToItself env w.broker
  else
    match i.op with
    | .connect _ _ opened => opened != vhost || w.broker.unlisted w.broker.nextConnId
    | _ => true

/-- The queues, the exchanges and their bindings are left as they are. -/
def World.sparesObjects (env : Env) (vhost : String) (w : World) (i : Input) : Prop :=
  w.comesFrom vhost i = true →
    (w.step env i).broker.queues = w.broker.queues ∧
      (w.step env i).broker.exchanges = w.broker.exchanges

section
variable {env : Env} {s : BrokerState} {connId : UInt64} {channel : UInt16}

/-! Requests that come to nothing. -/

theorem idle_exchangeDeclare {args : ExchangeDeclareArgs}
    (keeps : (Op.exchangeDeclare connId args).keepsToItself env s = true) :
    (exchangeDeclare connId args : Act env (List Frame)).final s = s := by
  unfold exchangeDeclare
  split
  · rw [final_bind, final_look]
    split <;> rfl
  · rename_i active
    have still : (declareActiveExchange connId args : Act env _).final s = s := by
      unfold declareActiveExchange
      split
      · rfl
      · rename_i unreserved
        unfold denied
        rw [final_bind, final_look, result_look]
        split
        · rfl
        · rename_i allowed
          split
          · rfl
          · rename_i kind known
            have present : s.exchanges.contains args.name = true := by
              simpa [Op.keepsToItself, active, unreserved, allowed, known] using keeps
            rw [final_bind, final_look, result_look, final_bind, present, Bool.not_true,
              Bool.and_false]
            change { s with exchanges := s.exchanges.orInsert args.name _ } = s
            rw [FinMap.orInsert_present present]
    rw [final_bind, still]
    split <;> rfl

theorem idle_exchangeDelete {name : String} {noWait : Bool}
    (keeps : (Op.exchangeDelete name noWait).keepsToItself env s = true) :
    (exchangeDelete name noWait : Act env (List Frame)).final s = s := by
  unfold exchangeDelete
  split
  · rfl
  · rename_i unreserved
    have missing : s.exchanges.get? name = none := by
      simpa [Op.keepsToItself, unreserved, FinMap.contains] using keeps
    change { s with exchanges := s.exchanges.erase name } = s
    rw [FinMap.erase_missing missing]

theorem idle_modifyExchange {exchange : String} (missing : s.exchanges.contains exchange = false)
    (f : Exchange → Exchange) : s.modifyExchange exchange f = s := by
  unfold BrokerState.modifyExchange
  rw [FinMap.modify_missing (by simpa [FinMap.contains] using missing)]

theorem idle_compileQueueSchema {opts : QueueOptions} (refuses : opts.refusesSchema = true) :
    ∃ err, (compileQueueSchema opts : Act env _).result s = .error err ∧
      (compileQueueSchema opts : Act env _).final s = s := by
  unfold QueueOptions.refusesSchema at refuses
  unfold compileQueueSchema
  split
  · rename_i none
    rw [none] at refuses
    cases refuses
  · rename_i raw given
    rw [given] at refuses
    dsimp only
    split
    · exact ⟨_, rfl, rfl⟩
    · rename_i protobuf
      split
      · exact ⟨_, rfl, rfl⟩
      · rename_i messageName named
        have invalid : fromUtf8 raw = none := by simpa [protobuf, named] using refuses
        have compiled : compileProto env.proto s.nextSchemaId raw messageName =
            (s.nextSchemaId, .error .invalidProto) := by rw [compileProto, invalid]
        rw [result_bind, final_bind, result_look, final_look, compiled]
        exact ⟨_, rfl, rfl⟩

theorem idle_queueDeclare {args : QueueDeclareArgs} {now : Instant}
    (keeps : (Op.queueDeclare connId args now).keepsToItself env s = true) :
    (queueDeclare connId args now : Act env (List Frame)).final s = s := by
  unfold queueDeclare
  split
  · rename_i generated
    simp [Op.keepsToItself, generated] at keeps
  · rename_i named
    split
    · rfl
    · rename_i unreserved
      unfold queueDeclare.declareNamed
      split
      · rw [final_bind, final_look]
        unfold sendDeclareOk
        split
        · split <;> rfl
        · rfl
      · rename_i active
        unfold denied
        rw [final_bind, final_look, result_look]
        split
        · rfl
        · rename_i allowed
          unfold declareActive
          rw [final_bind, final_look, result_look]
          dsimp only
          split
          · rfl
          · rename_i unlocked
            have refuses : args.options.refusesSchema = true := by
              simp only [Op.keepsToItself, Bool.and_eq_true, Bool.or_eq_true] at keeps
              obtain ⟨-, (((passive | reserved) | refused) | locked) | refuses⟩ := keeps
              · exact absurd passive active
              · refine absurd ?_ unreserved
                rw [Bool.eq_false_iff.mpr active, reserved.1, reserved.2]
                rfl
              · exact absurd refused allowed
              · exact absurd locked unlocked
              · exact refuses
            obtain ⟨err, failed, still⟩ := @idle_compileQueueSchema env s _ refuses
            rw [final_bind, failed, still]
            rfl

theorem idle_queueDelete {name : String} {ifUnused ifEmpty noWait : Bool}
    (keeps : s.deletes name ifUnused ifEmpty = false) :
    (queueDelete connId name ifUnused ifEmpty noWait : Act env (List Frame)).final s = s := by
  unfold queueDelete
  unfold BrokerState.deletes at keeps
  rw [final_bind, final_look, result_look]
  cases found : s.queues.get? name with
  | none => rfl
  | some q =>
    dsimp only
    split
    · rfl
    · rename_i used
      split
      · rfl
      · rename_i empty
        rw [found, Option.any_some, Bool.eq_false_iff.mpr used, Bool.eq_false_iff.mpr empty]
          at keeps
        cases keeps

theorem idle_queuePurge {name : String} {noWait : Bool}
    (missing : s.queues.contains name = false) :
    (queuePurge name noWait : Act env (List Frame)).final s = s := by
  unfold queuePurge
  rw [final_bind, final_look, result_look,
    Option.isNone_iff_eq_none.mp (Option.isSome_eq_false_iff.mp missing)]
  rfl

theorem idle_queueBind {queue exchange routingKey : String} {noWait : Bool}
    (missing : (!s.queues.contains queue || !s.exchanges.contains exchange) = true) :
    (queueBind queue exchange routingKey noWait : Act env (List Frame)).final s = s := by
  unfold queueBind
  rw [final_bind, final_look, result_look]
  split
  · rfl
  · rename_i known
    rw [final_bind, final_look, result_look]
    split
    · rfl
    · rename_i known'
      simp [known, known'] at missing

theorem idle_queueUnbind {queue exchange routingKey : String}
    (missing : (!s.queues.contains queue || !s.exchanges.contains exchange) = true) :
    (queueUnbind queue exchange routingKey : Act env (List Frame)).final s = s := by
  unfold queueUnbind
  rw [final_bind, final_look, result_look]
  split
  · rfl
  · rename_i known
    rw [final_bind, final_look, result_look]
    split
    · rfl
    · rename_i known'
      simp [known, known'] at missing

theorem idle_routePublish {args : PublishArgs} (now : Instant) (tag : Option UInt64)
    (keeps : ((s.exchanges.get? args.exchange).all fun ex => (args.targets env ex).isEmpty ||
      (schemaFailure env s (args.targets env ex) args.body).isSome) = true) :
    (routePublish args now tag : Act env (List Frame)).final s = s := by
  unfold routePublish
  rw [final_bind, final_look, result_look]
  cases found : s.exchanges.get? args.exchange with
  | none => rfl
  | some ex =>
    rw [found, Option.all_some] at keeps
    dsimp only
    split
    · rfl
    · rename_i targets
      rw [Bool.eq_false_iff.mpr targets, Bool.false_or] at keeps
      obtain ⟨failure, fails⟩ := Option.isSome_iff_exists.mp keeps
      rw [final_bind, final_look, result_look, fails]
      rfl

theorem idle_validateConsumerSchema {args : ConsumeArgs} (refuses : args.refusesSchema = true) :
    ∃ text, (validateConsumerSchema args : Act env (Option String)).result s = some text ∧
      (validateConsumerSchema args : Act env (Option String)).final s = s := by
  unfold ConsumeArgs.refusesSchema at refuses
  unfold validateConsumerSchema
  split
  · rename_i none
    rw [none] at refuses
    cases refuses
  · rename_i raw given
    rw [given] at refuses
    split
    · exact ⟨_, rfl, rfl⟩
    · rename_i messageName named
      have invalid : fromUtf8 raw = none := by simpa [named] using refuses
      have compiled : compileProto env.proto s.nextSchemaId raw (fromUtf8Lossy messageName) =
          (s.nextSchemaId, .error .invalidProto) := by rw [compileProto, invalid]
      rw [result_bind, final_bind, result_look, final_look, compiled]
      exact ⟨_, rfl, rfl⟩

theorem idle_basicConsume {args : ConsumeArgs}
    (keeps : (Op.basicConsume connId channel args).keepsToItself env s = true) :
    (basicConsume connId channel args : Act env (List Frame)).final s = s := by
  unfold basicConsume denied
  rw [final_bind, final_look, result_look, final_bind, final_look, result_look]
  split
  · rfl
  · rename_i allowed
    split
    · rfl
    · rename_i available
      simp only [Op.keepsToItself, Bool.or_eq_true] at keeps
      obtain ((refused | busy) | refuses) | missing := keeps
      · exact absurd refused allowed
      · exact absurd busy available
      · obtain ⟨text, failed, still⟩ := @idle_validateConsumerSchema env s _ refuses
        rw [final_bind, failed, still]
        rfl
      · obtain ⟨schemaless, unknown⟩ := Bool.and_eq_true_iff.mp missing
        have passes : (validateConsumerSchema args : Act env (Option String)) = pure none := by
          unfold validateConsumerSchema
          rw [Option.isNone_iff_eq_none.mp schemaless]
        rw [passes, final_bind, result_pure, final_pure, final_bind, final_look, result_look,
          unknown]
        rfl

theorem idle_takeDelivery {tag : UInt64} (unknown : s.deliveryIndex.contains tag = false) :
    (takeDelivery tag : Act env (Option String)).result s = none ∧
      (takeDelivery tag : Act env (Option String)).final s = s := by
  have missing : s.deliveryIndex.get? tag = none :=
    Option.isNone_iff_eq_none.mp (Option.isSome_eq_false_iff.mp unknown)
  unfold takeDelivery
  rw [result_bind, final_bind, result_look, final_look, missing]
  refine ⟨rfl, ?_⟩
  change { s with deliveryIndex := s.deliveryIndex.erase tag } = s
  rw [FinMap.erase_missing missing]

theorem idle_basicGet {queue : String} {noAck : Bool}
    (nothing : ((s.queues.get? queue).all fun q => q.messages.popFront.isNone) = true) :
    (basicGet connId queue noAck : Act env (List Frame)).final s = s := by
  unfold basicGet
  rw [final_bind, final_look, result_look]
  cases found : s.queues.get? queue with
  | none => rfl
  | some q =>
    rw [found, Option.all_some] at nothing
    dsimp only
    rw [Option.isNone_iff_eq_none.mp nothing]
    rfl

/-! Requests that come to a session only. -/

section
variable {away : UInt64 → Prop}

theorem equalBut_modifyConn (mine : away connId) (f : ConnectionState → ConnectionState) :
    s.EqualBut away (s.modifyConn connId f) := by
  refine ⟨rfl, fun c present => ⟨?_, rfl⟩⟩
  have other : c ≠ connId := fun same => present (same ▸ mine)
  change (s.connState.modify connId f).get? c = s.connState.get? c
  rw [FinMap.get?_modify, if_neg other]

theorem equalBut_withConnState (mine : away connId) (f : ConnectionState → ConnectionState)
    (frames : List Frame) : s.EqualBut away
      ((do withConnState connId f; return frames : Act env (List Frame)).final s) :=
  equalBut_modifyConn mine f

theorem equalBut_basicCancel (tag : String) (noWait : Bool) :
    s.EqualBut away ((basicCancel connId tag noWait : Act env (List Frame)).final s) :=
  ⟨rfl, fun _ _ => ⟨rfl, rfl⟩⟩

theorem equalBut_drainTxBuffer (mine : away connId) :
    s.EqualBut away ((drainTxBuffer connId : Act env _).final s) := by
  unfold drainTxBuffer
  rw [final_bind, final_look, result_look]
  split
  · exact .refl
  · exact equalBut_modifyConn mine _

theorem equalBut_txRollback (mine : away connId) :
    s.EqualBut away ((txRollback connId : Act env (List Frame)).final s) := by
  unfold txRollback
  rw [final_bind]
  split <;> exact equalBut_drainTxBuffer mine

theorem equalBut_txCommit (mine : away connId)
    (keeps : (Op.txCommit connId).keepsToItself env s = true) :
    s.EqualBut away ((txCommit connId : Act env (List Frame)).final s) := by
  have drained := @equalBut_drainTxBuffer env s _ _ mine
  unfold txCommit
  rw [final_bind, result_drainTxBuffer]
  generalize (drainTxBuffer connId : Act env _).final s = t at drained ⊢
  cases found : (s.connState.get? connId).filter (·.txMode) with
  | none => exact drained
  | some cs =>
    obtain ⟨session, begun⟩ := Option.filter_eq_some_iff.mp found
    have failure : txSchemaFailure env t cs.txBuffer = txSchemaFailure env s cs.txBuffer := by
      unfold txSchemaFailure schemaFailure
      rw [drained.queues]
    rw [Option.map_some]
    dsimp only
    rw [final_bind, final_look, result_look, failure]
    simp only [Op.keepsToItself, session, Option.all_some, begun, Bool.not_true, Bool.false_or,
      Bool.or_eq_true, List.isEmpty_iff] at keeps
    split
    · exact drained
    · rename_i passes
      obtain empty | refused := keeps
      · rw [empty]
        exact drained
      · rw [passes] at refused
        cases refused

theorem equalBut_basicPublish (mine : away connId) {args : PublishArgs} {now : Instant}
    (keeps : (Op.basicPublish connId channel args now).keepsToItself env s = true) :
    s.EqualBut away ((basicPublish connId channel args now : Act env (List Frame)).final s) := by
  cases permitted : checkPermission env s connId (·.write) args.exchange with
  | false =>
    unfold final steps
    rw [basicPublish_denied now permitted]
    exact .refl
  | true =>
    have numbered : s.EqualBut away (s.numbered connId channel) := by
      unfold BrokerState.numbered
      split
      · exact equalBut_modifyConn mine _
      · exact .refl
    rw [(basicPublish_permitted now permitted).2]
    split
    · exact numbered.trans (equalBut_modifyConn mine _)
    · rename_i direct
      obtain ⟨conns, same⟩ := s.numbered_connState connId channel
      have nothing : ((s.exchanges.get? args.exchange).all fun ex =>
          (args.targets env ex).isEmpty ||
            (schemaFailure env s (args.targets env ex) args.body).isSome) = true := by
        simpa [Op.keepsToItself, permitted, direct] using keeps
      rw [idle_routePublish now _ (by rw [same]; exact nothing)]
      exact numbered

theorem equalBut_decrementUnacked (mine : away connId) :
    s.EqualBut away ((decrementUnacked connId channel : Act env Unit).final s) :=
  equalBut_modifyConn mine _

theorem equalBut_basicAck (mine : away connId) {tag : UInt64}
    (unknown : s.deliveryIndex.contains tag = false) :
    s.EqualBut away ((basicAck connId channel tag : Act env (List Frame)).final s) := by
  obtain ⟨nothing, still⟩ := @idle_takeDelivery env
    ((decrementUnacked connId channel : Act env Unit).final s) tag unknown
  unfold basicAck
  rw [final_bind, final_bind, nothing, still]
  exact equalBut_decrementUnacked mine

theorem equalBut_basicNack (mine : away connId) {tag : UInt64} {requeue : Bool}
    (unknown : s.deliveryIndex.contains tag = false) :
    s.EqualBut away ((basicNack connId channel tag requeue : Act env (List Frame)).final s) := by
  obtain ⟨nothing, still⟩ := @idle_takeDelivery env
    ((decrementUnacked connId channel : Act env Unit).final s) tag unknown
  unfold basicNack resolveNegativeDelivery
  rw [final_bind, final_bind, final_bind, nothing, still]
  exact equalBut_decrementUnacked mine

theorem equalBut_dropConnection (mine : away connId) :
    s.EqualBut away ((change (.dropConnection connId) : Act env Unit).final s) := by
  refine ⟨rfl, fun c present => ?_⟩
  have other : c ≠ connId := fun same => present (same ▸ mine)
  constructor
  · exact (FinMap.get?_erase _ _ _).trans (if_neg other)
  · exact (FinMap.get?_erase _ _ _).trans (if_neg other)

theorem equalBut_closeConnection (mine : away connId) :
    s.EqualBut away (served env s (.closeConnection connId)) := by
  change s.EqualBut away ((closeConnection connId : Act env (List Frame)).final s)
  unfold closeConnection
  rw [final_bind, final_look, result_look]
  dsimp only
  split
  · rw [final_bind, final_pure]
    exact equalBut_dropConnection mine
  · exact .refl

theorem still_change {b : Bookkeeping} (still : b.apply s = s) :
    (change b : Act env Unit).final s = s := (exec_books b).trans still

theorem still_dropListeners (queues : ∀ e ∈ s.queues.entries,
      (∀ c ∈ e.2.consumerTags.entries, (c.2.1 != connId) = true) ∧
        ∀ l ∈ e.2.listeners, (l.1 != connId) = true) :
    exec env s (.tuneAll (dropListeners connId)) = s := by
  have still : (s.queues.mapVals fun _ q => (dropListeners connId).apply q) = s.queues := by
    refine FinMap.mapVals_still fun e member => ?_
    obtain ⟨tags, listeners⟩ := queues e member
    change { e.2 with
      listeners := e.2.listeners.filter fun l => l.1 != connId
      consumerTags := e.2.consumerTags.retain fun _ c => c.1 != connId } = e.2
    rw [List.filter_eq_self.mpr listeners, FinMap.retain_all tags]
  change { s with queues := s.queues.mapVals fun _ q => (dropListeners connId).apply q } = s
  rw [still]

theorem equalBut_removeConnection (mine : away connId) (nothing : s.leavesNothing connId = true) :
    s.EqualBut away ((removeConnection connId : Act env Unit).final s) := by
  simp only [BrokerState.leavesNothing, Bool.and_eq_true, Bool.not_eq_true', List.all_eq_true]
    at nothing
  obtain ⟨⟨exclusives, deliveries⟩, queues⟩ := nothing
  rw [FinMap.contains, Option.isSome_eq_false_iff, Option.isNone_iff_eq_none] at exclusives
  rw [FinMap.contains, Option.isSome_eq_false_iff, Option.isNone_iff_eq_none] at deliveries
  have dropped := @equalBut_dropConnection env s _ _ mine
  have exclusives' :
    ((change (.dropConnection connId) : Act env Unit).final s).connExclusiveQueues.get?
      connId = none := exclusives
  have deliveries' : ((change (.dropConnection connId) : Act env Unit).final s).connDeliveries.get?
    connId = none := deliveries
  have queues' := dropped.queues
  unfold removeConnection
  rw [final_bind]
  generalize (change (.dropConnection connId) : Act env Unit).final s = t
    at dropped exclusives' deliveries' queues' ⊢
  rw [← queues'] at queues
  have tags : (t.queues.entries.flatMap fun e =>
      (e.2.consumerTags.entries.filter fun c => c.2.1 == connId).map Sigma.fst) = [] := by
    refine List.flatMap_eq_nil_iff.mpr fun e member => ?_
    rw [List.filter_eq_nil_iff.mpr, List.map_nil]
    intro c listed same
    have other := (queues e member).1.1.1 c listed
    rw [bne, same] at other
    cases other
  have owned : (t.queues.retain fun _ q =>
      q.options.exclusive && q.ownerConnId == some connId).keys = [] :=
    FinMap.keys_retain_none fun e member => (queues e member).1.2
  have unused : (t.queues.retain fun _ q => q.options.autoDelete && q.listeners.isEmpty).keys = [] :=
    FinMap.keys_retain_none fun e member => (queues e member).2
  have still := @still_dropListeners env t connId fun e member => (queues e member).1.1
  rw [final_bind, final_look, result_look, exclusives', Option.getD_none, final_bind, still_change]
  · rw [final_bind]
    change s.EqualBut away (final _ t)
    rw [final_bind, final_look, result_look, deliveries', Option.getD_none, final_bind,
      still_change]
    · rw [final_bind]
      change s.EqualBut away (final _ t)
      rw [final_bind, final_look, result_look, tags, final_bind, still_change]
      · rw [final_bind, final_performed, still, final_bind, final_look, result_look, owned,
          final_bind]
        change s.EqualBut away (final _ t)
        rw [final_bind, final_look, result_look, unused]
        exact dropped
      · rfl
    · change { t with connDeliveries := t.connDeliveries.erase connId } = t
      rw [FinMap.erase_missing deliveries']
  · change { t with connExclusiveQueues := t.connExclusiveQueues.erase connId } = t
    rw [FinMap.erase_missing exclusives']

theorem equalBut_of_idle {t : BrokerState} (idle : t = s) : s.EqualBut away t := idle ▸ .refl

theorem equalBut_keepsToItself {op : Op} (mine : ∀ connId ∈ op.connection?, away connId)
    (keeps : op.keepsToItself env s = true) : s.EqualBut away (served env s op) := by
  have unknown {tag : UInt64} (keeps : (!s.deliveryIndex.contains tag) = true) :
      s.deliveryIndex.contains tag = false := by rwa [Bool.not_eq_true'] at keeps
  have unbound {exchange : String} (keeps : (!s.exchanges.contains exchange) = true)
      (f : Exchange → Exchange) : s.EqualBut away (s.modifyExchange exchange f) :=
    equalBut_of_idle (idle_modifyExchange (by rwa [Bool.not_eq_true'] at keeps) f)
  cases op with
  | channelOpen connId | channelClose connId | channelFlow connId | basicQos connId
  | txSelect connId | confirmSelect connId => exact equalBut_withConnState (mine connId rfl) _ _
  | basicCancel => exact equalBut_basicCancel _ _
  | basicRecover => exact .refl
  | txRollback connId => exact equalBut_txRollback (mine connId rfl)
  | txCommit connId => exact equalBut_txCommit (mine connId rfl) keeps
  | disconnect connId =>
    change s.EqualBut away ((silent (removeConnection connId) : Act env (List Frame)).final s)
    unfold silent
    rw [final_bind, final_pure]
    exact equalBut_removeConnection (mine connId rfl) keeps
  | exchangeDeclare => exact equalBut_of_idle (idle_exchangeDeclare keeps)
  | exchangeDelete => exact equalBut_of_idle (idle_exchangeDelete keeps)
  | exchangeBind | exchangeUnbind => exact unbound keeps _
  | queueDeclare => exact equalBut_of_idle (idle_queueDeclare keeps)
  | queueDelete =>
    exact equalBut_of_idle (idle_queueDelete (by rwa [Op.keepsToItself, Bool.not_eq_true'] at keeps))
  | queuePurge =>
    exact equalBut_of_idle (idle_queuePurge (by rwa [Op.keepsToItself, Bool.not_eq_true'] at keeps))
  | queueBind => exact equalBut_of_idle (idle_queueBind keeps)
  | queueUnbind => exact equalBut_of_idle (idle_queueUnbind keeps)
  | basicPublish connId => exact equalBut_basicPublish (mine connId rfl) keeps
  | basicConsume => exact equalBut_of_idle (idle_basicConsume keeps)
  | basicAck connId => exact equalBut_basicAck (mine connId rfl) (unknown keeps)
  | basicReject connId | basicNack connId =>
    exact equalBut_basicNack (mine connId rfl) (unknown keeps)
  | basicGet => exact equalBut_of_idle (idle_basicGet keeps)
  | _ => cases keeps

end

/-! Two worlds. -/

namespace World
variable {vhost : String} {w v : World} {i : Input}

/-- The worlds differ in the sessions of a vhost at most, and no queue knows one of these. -/
structure Like (vhost : String) (w v : World) : Prop where
  opened : v.opened = w.opened
  broker : w.broker.EqualBut (fun connId => w.isOn vhost connId = true) v.broker
  unlisted : ∀ queue c, w.broker.Lists queue c → w.isOn vhost c.connId = false

theorem Like.isOn (like : Like vhost w v) : v.isOn = w.isOn := by
  unfold World.isOn
  rw [like.opened]

/-- Nobody is on two vhosts. -/
theorem isOn_other {other : String} (different : vhost ≠ other) {connId : UInt64}
    (here : w.isOn vhost connId = true) : w.isOn other connId = false := by
  unfold World.isOn at here ⊢
  rw [beq_iff_eq.mp here]
  simpa using different

theorem opened_step_of_comesFrom (comes : w.comesFrom vhost i = true) :
    (w.step env i).opened = w.opened := by
  cases i with
  | method connId channel m => cases m <;> rfl
  | event op =>
    cases op with
    | connect | restart => cases comes
    | _ => rfl

theorem by?_of_told {connId : UInt64} (told : connId ∈ i.op.connection?)
    (asked : ∀ c, i ≠ .event (.closeConnection c)) : i.by? = some connId := by
  cases i with
  | method asking channel m => cases m <;> first | exact told | cases told
  | event op =>
    cases op with
    | closeConnection => exact absurd rfl (asked _)
    | _ => exact told

theorem isOn_of_comesFrom {connId : UInt64} (comes : w.comesFrom vhost i = true)
    (told : connId ∈ i.op.connection?) : w.isOn vhost connId = true := by
  have asked (c : UInt64) : i ≠ .event (.closeConnection c) := by
    rintro rfl
    cases comes
  rwa [World.comesFrom, by?_of_told told asked] at comes

theorem not_isOn_of_visible {connId : UInt64} (comes : w.comesFrom vhost i = false)
    (told : connId ∈ i.op.connection?) (asked : ∀ c, i ≠ .event (.closeConnection c)) :
    w.isOn vhost connId = false := by
  rwa [World.comesFrom, by?_of_told told asked] at comes

theorem sends_of_comesFrom {other : String} (different : vhost ≠ other)
    (comes : w.comesFrom vhost i = true) : w.sends env other i = [] := by
  unfold World.comesFrom at comes
  refine List.filterMap_eq_nil_iff.mpr fun f _ => ?_
  cases asks : i.by? with
  | none =>
    rw [asks] at comes
    cases comes
  | some connId =>
    rw [asks] at comes
    have elsewhere := isOn_other different comes
    simp [Input.receiver?, asks, elsewhere]

theorem lists_congr {s t : BrokerState} (queues : t.queues = s.queues) (queue : String)
    (c : Consumer) : t.Lists queue c ↔ s.Lists queue c := by
  unfold BrokerState.Lists BrokerState.HasConsumer BrokerState.Receives
  rw [queues]

/-- A request from the vhost that keeps to itself leaves the worlds alike. -/
theorem Like.hidden (like : Like vhost w v) (comes : w.comesFrom vhost i = true)
    (keeps : i.op.keepsToItself env w.broker = true) : Like vhost (w.step env i) v := by
  have opened := @opened_step_of_comesFrom env _ _ _ comes
  have on : (w.step env i).isOn = w.isOn := by
    unfold World.isOn
    rw [opened]
  have aside : w.broker.EqualBut (fun connId => w.isOn vhost connId = true)
      (w.step env i).broker :=
    equalBut_keepsToItself (fun _ told => isOn_of_comesFrom comes told) keeps
  refine ⟨like.opened.trans opened.symm, ?_, fun queue c listed => ?_⟩
  · rw [on]
    exact aside.symm.trans like.broker
  · rw [on]
    exact like.unlisted queue c ((lists_congr aside.queues queue c).mp listed)

theorem Like.answers (like : Like vhost w v) (comes : w.comesFrom vhost i = false)
    (asked : ∀ connId, i ≠ .event (.closeConnection connId)) :
    answer env w.broker i.op = answer env v.broker i.op ∧
      (w.step env i).broker.EqualBut (fun connId => w.isOn vhost connId = true)
        (v.step env i).broker := by
  by_cases delivers : ∃ queue answers now, i.op = .deliverRound queue answers now
  · obtain ⟨queue, answers, now, round⟩ := delivers
    unfold World.step answer served
    rw [round]
    refine couples_deliverRound like.broker (fun q found c active => ?_) answers now
    rw [like.unlisted queue c (.inr ⟨q, found, active⟩)]
    exact Bool.false_ne_true
  · refine overlooks_handle (fun connId told => ?_) (fun queue answers now same => ?_) _ _
      like.broker
    · rw [not_isOn_of_visible comes told asked]
      exact Bool.false_ne_true
    · exact delivers ⟨queue, answers, now, same⟩

theorem Like.unlisted_step (like : Like vhost w v) (comes : w.comesFrom vhost i = false)
    {queue : String} {c : Consumer} (listed : (w.step env i).broker.Lists queue c) :
    w.isOn vhost c.connId = false := by
  obtain old | ⟨channel, args, consumes, -⟩ := lists_served listed
  · exact like.unlisted queue c old
  · refine not_isOn_of_visible comes ?_ ?_
    · rw [consumes]
      rfl
    · rintro connId rfl
      cases consumes

theorem Like.opened_step (like : Like vhost w v) :
    (v.step env i).opened = (w.step env i).opened := by
  unfold World.step
  rw [like.opened, like.broker.nextConnId]

theorem Like.sends_step (like : Like vhost w v) (other : String)
    (same : answer env w.broker i.op = answer env v.broker i.op) :
    w.sends env other i = v.sends env other i := by
  unfold World.sends
  rw [like.isOn, same]

theorem ne_of_unlisted {s : BrokerState} {connId : UInt64} (unlisted : s.unlisted connId = true)
    {queue : String} {c : Consumer} (listed : s.Lists queue c) : c.connId ≠ connId := by
  simp only [BrokerState.unlisted, List.all_eq_true, Bool.and_eq_true, bne_iff_ne] at unlisted
  obtain ⟨q, found, registered⟩ | ⟨q, found, active⟩ := listed
  · exact (unlisted _ (FinMap.get?_eq_some_iff_mem.mp found)).1 _
      (FinMap.get?_eq_some_iff_mem.mp registered)
  · exact (unlisted _ (FinMap.get?_eq_some_iff_mem.mp found)).2 c active

theorem Like.connect (like : Like vhost w v) {addr username opened : String}
    (fresh : opened = vhost → w.broker.unlisted w.broker.nextConnId = true) :
    Like vhost (w.step env (.event (.connect addr username opened)))
      (v.step env (.event (.connect addr username opened))) := by
  have on (connId : UInt64) : (w.step env (.event (.connect addr username opened))).isOn vhost
      connId = if connId = w.broker.nextConnId then opened == vhost else w.isOn vhost connId := by
    change ((w.opened.insert w.broker.nextConnId opened).get? connId == some vhost) = _
    rw [FinMap.get?_insert]
    split <;> rfl
  refine ⟨like.opened_step, ?_, fun queue c listed => ?_⟩
  · refine equalBut_connect like.broker (fun c gone other => ?_) addr username opened
    rw [on, if_neg other]
    exact gone
  · have before : w.isOn vhost c.connId = false := like.unlisted_step rfl listed
    rw [on]
    split
    · rename_i new
      obtain old | ⟨_, _, consumes, -⟩ := lists_served listed
      · refine beq_eq_false_iff_ne.mpr fun same => ?_
        exact ne_of_unlisted (fresh same) old new
      · cases consumes
    · exact before

theorem Like.closeConnection (like : Like vhost w v) (connId : UInt64) :
    Like vhost (w.step env (.event (.closeConnection connId)))
      (v.step env (.event (.closeConnection connId))) := by
  refine ⟨like.opened_step, ?_, fun queue c listed => like.unlisted_step rfl listed⟩
  change BrokerState.EqualBut (fun c => w.isOn vhost c = true)
    (served env w.broker (.closeConnection connId)) (served env v.broker (.closeConnection connId))
  by_cases mine : w.isOn vhost connId = true
  · exact (equalBut_closeConnection mine).symm.trans
      (like.broker.trans (equalBut_closeConnection mine))
  · exact (overlooks_closeConnection mine _ _ like.broker).2

theorem sends_closeConnection (other : String) (connId : UInt64) :
    w.sends env other (.event (.closeConnection connId)) = [] := by
  unfold World.sends
  change ((closeConnection connId : Act env (List Frame)).result w.broker).filterMap _ = []
  unfold closeConnection
  rw [result_bind, result_look, final_look]
  split <;> rfl

theorem Like.restart (like : Like vhost w v) (now : Instant) (auth : AuthBackend)
    (cluster : Option ClusterCoordinator) :
    Like vhost (w.step env (.event (.restart now auth cluster)))
      (v.step env (.event (.restart now auth cluster))) := by
  have wal : v.broker.wal = w.broker.wal := by
    rw [like.broker.rest]
    rfl
  refine ⟨rfl, ?_, fun _ _ _ => rfl⟩
  change BrokerState.EqualBut _ (RocketmqBroker.restart env now w.broker.wal.dir auth cluster)
    (RocketmqBroker.restart env now v.broker.wal.dir auth cluster)
  rw [wal]
  exact .refl

/-- What is not from the vhost shows other vhosts the same, and leaves the worlds alike. -/
theorem Like.visible (like : Like vhost w v) (other : String)
    (comes : w.comesFrom vhost i = false) (apart : w.keepsApart env vhost i = true) :
    w.sends env other i = v.sends env other i ∧ Like vhost (w.step env i) (v.step env i) := by
  have steady (asked : ∀ c, i ≠ .event (.closeConnection c))
      (opened : (w.step env i).opened = w.opened) :
      w.sends env other i = v.sends env other i ∧ Like vhost (w.step env i) (v.step env i) := by
    obtain ⟨same, broker⟩ := @Like.answers env _ _ _ _ like comes asked
    have on : (w.step env i).isOn = w.isOn := by
      unfold World.isOn
      rw [opened]
    refine ⟨like.sends_step other same, like.opened_step, ?_, fun queue c listed => ?_⟩
    · rwa [on]
    · rw [on]
      exact like.unlisted_step comes listed
  cases i with
  | method connId channel m =>
    refine steady (fun c same => by cases same) ?_
    cases m <;> rfl
  | event op =>
    cases op with
    | closeConnection connId =>
      exact ⟨(sends_closeConnection other connId).trans (sends_closeConnection other connId).symm,
        like.closeConnection connId⟩
    | connect addr username opened =>
      have same := (@Like.answers env _ _ _ _ like comes fun c same => by cases same).1
      refine ⟨like.sends_step other same, like.connect fun here => ?_⟩
      simpa [World.keepsApart, World.comesFrom, Input.by?, Op.connection?, Input.op, here]
        using apart
    | restart now auth cluster =>
      have same := (@Like.answers env _ _ _ _ like comes fun c same => by cases same).1
      exact ⟨like.sends_step other same, like.restart now auth cluster⟩
    | _ => exact steady (fun c same => by cases same) rfl

theorem unwinds (env : Env) {vhost other : String} (different : vhost ≠ other) :
    Unwinds (step env) (comesFrom vhost) (sends env other)
      (fun w i => w.keepsApart env vhost i = true) (Like vhost) where
  hides w v i like apart comes := by
    rw [World.keepsApart, if_pos comes] at apart
    exact ⟨sends_of_comesFrom different comes, like.hidden comes apart⟩
  shows w v i like apart comes := like.visible other comes apart

theorem sparesObjects_of_keepsApart (apart : w.keepsApart env vhost i = true) :
    w.sparesObjects env vhost i := by
  intro comes
  rw [World.keepsApart, if_pos comes] at apart
  have aside : w.broker.EqualBut (fun connId => w.isOn vhost connId = true)
      (w.step env i).broker :=
    equalBut_keepsToItself (fun _ told => isOn_of_comesFrom comes told) apart
  refine ⟨aside.queues, ?_⟩
  rw [aside.rest]
  rfl

end World

end

/-- Two runs from one state that differ in what connections of a vhost do, and in which that
    keeps apart, show the connections of any other vhost the same. What those connections do
    leaves every queue, exchange and binding alone. -/
theorem vhosts_noninterference (env : Env) (s : BrokerState) {vhost other : String}
    (different : vhost ≠ other) {is js : List Input}
    (same : visible (World.step env) (World.comesFrom vhost) ⟨s, ∅⟩ is =
      visible (World.step env) (World.comesFrom vhost) ⟨s, ∅⟩ js)
    (first : Along (World.step env) (fun w i => w.keepsApart env vhost i = true) ⟨s, ∅⟩ is)
    (second : Along (World.step env) (fun w i => w.keepsApart env vhost i = true) ⟨s, ∅⟩ js) :
    display (World.step env) (World.sends env other) ⟨s, ∅⟩ is =
        display (World.step env) (World.sends env other) ⟨s, ∅⟩ js ∧
      Along (World.step env) (World.sparesObjects env vhost) ⟨s, ∅⟩ is := by
  refine ⟨(World.unwinds env different).noninterference ?_ same first second, ?_⟩
  · exact ⟨rfl, .refl, fun _ _ _ => rfl⟩
  · exact along_mono (fun _ _ => World.sparesObjects_of_keepsApart) first

def guestOnBoth : AuthBackend := guestOnly.insert ("guest", "staging") ⟨".*", ".*", ".*"⟩

def bothVhosts : BrokerState := install (plainEnv 64 1) guestOnBoth none

def onePerVhost : List Input :=
  [.event (.connect "127.0.0.1:50000" "guest" "/"),
    .event (.connect "127.0.0.1:50001" "guest" "staging")]

def passively (queue : String) : Method :=
  .queueDeclare ⟨queue, true, false, false, false, false, []⟩ 0

def actively (queue : String) : Method :=
  .queueDeclare ⟨queue, false, false, false, false, false, []⟩ 0

theorem visible_of_secrets {is : List Input} (bs : List Bool)
    (marked : secrets (World.step (plainEnv 64 1)) (World.comesFrom "staging") ⟨bothVhosts, ∅⟩
      is = bs) :
    visible (World.step (plainEnv 64 1)) (World.comesFrom "staging") ⟨bothVhosts, ∅⟩ is =
      ((is.zip bs).filter fun e => !e.2).map Prod.fst := by
  rw [visible_eq_filter, marked]

theorem vhosts_noninterference_asking :
    display (World.step (plainEnv 64 1)) (World.sends (plainEnv 64 1) "/") ⟨bothVhosts, ∅⟩
        (onePerVhost ++ [.method 2 1 .channelOpen, .method 1 1 (actively "q"),
          .method 2 1 (passively "q")]) =
      display (World.step (plainEnv 64 1)) (World.sends (plainEnv 64 1) "/") ⟨bothVhosts, ∅⟩
        (onePerVhost ++ [.method 1 1 (actively "q")]) ∧
      Along (World.step (plainEnv 64 1)) (World.sparesObjects (plainEnv 64 1) "staging")
        ⟨bothVhosts, ∅⟩ (onePerVhost ++ [.method 2 1 .channelOpen, .method 1 1 (actively "q"),
          .method 2 1 (passively "q")]) := by
  refine vhosts_noninterference (plainEnv 64 1) bothVhosts (by decide) ?_ (by decide +kernel)
    (by decide +kernel)
  rw [visible_of_secrets [false, false, true, false, true] (by decide +kernel),
    visible_of_secrets [false, false, false] (by decide +kernel)]
  rfl

/-- A queue that the one vhost declares is found from the other one. -/
theorem queue_of_other_vhost_seen : ¬ ∀ is js : List Input,
    visible (World.step (plainEnv 64 1)) (World.comesFrom "staging") ⟨bothVhosts, ∅⟩ is =
        visible (World.step (plainEnv 64 1)) (World.comesFrom "staging") ⟨bothVhosts, ∅⟩ js →
      display (World.step (plainEnv 64 1)) (World.sends (plainEnv 64 1) "/") ⟨bothVhosts, ∅⟩ is =
        display (World.step (plainEnv 64 1)) (World.sends (plainEnv 64 1) "/") ⟨bothVhosts, ∅⟩
          js := by
  intro hidden
  have same := hidden (onePerVhost ++ [.method 2 1 (actively "q"), .method 1 1 (passively "q")])
    (onePerVhost ++ [.method 1 1 (passively "q")]) (by
      rw [visible_of_secrets [false, false, true, false] (by decide +kernel),
        visible_of_secrets [false, false, false] (by decide +kernel)]
      rfl)
  have differ : ¬ display (World.step (plainEnv 64 1)) (World.sends (plainEnv 64 1) "/")
        ⟨bothVhosts, ∅⟩ (onePerVhost ++
          [.method 2 1 (actively "q"), .method 1 1 (passively "q")]) =
      display (World.step (plainEnv 64 1)) (World.sends (plainEnv 64 1) "/") ⟨bothVhosts, ∅⟩
        (onePerVhost ++ [.method 1 1 (passively "q")]) := by decide +kernel
  exact differ same

end RocketmqBroker
