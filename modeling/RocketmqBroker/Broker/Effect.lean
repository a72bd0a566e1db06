import RocketmqBroker.Lib.Program
import RocketmqBroker.Server.Compaction

/-!
What a handler can do to the broker. Every change of a queue, an exchange, the
message counter or the log is one of the effects below; a handler is a program
over them. An effect that logs something changes memory and log in one step,
since nothing reads the log between the two.
-/
namespace RocketmqBroker

/-- A change of sessions, consumers and indices, and of nothing that the log or
    the queues are about. -/
structure Bookkeeping where
  apply : BrokerState → BrokerState
  nextMsgId : ∀ s, (apply s).nextMsgId = s.nextMsgId := by intro s; rfl
  exchanges : ∀ s, (apply s).exchanges = s.exchanges := by intro s; rfl
  queues : ∀ s, (apply s).queues = s.queues := by intro s; rfl
  wal : ∀ s, (apply s).wal = s.wal := by intro s; rfl

def Bookkeeping.setNextSchemaId (nextSchemaId : UInt64) : Bookkeeping where
  apply s := { s with nextSchemaId }

def Bookkeeping.dropConnection (connId : UInt64) : Bookkeeping where
  apply s := { s with
    connections := s.connections.erase connId
    connState := s.connState.erase connId }

structure Tuning where
  apply : QueueState → QueueState
  options : ∀ q, (apply q).options = q.options := by intro q; rfl
  messages : ∀ q, (apply q).messages = q.messages := by intro q; rfl
  inflight : ∀ q, (apply q).inflight = q.inflight := by intro q; rfl

structure NewQueue where
  state : QueueState
  messages : state.messages = .new := by rfl
  inflight : state.inflight = ∅ := by rfl

inductive Fate where
  | drop
  | hold
  | front
  | back
  deriving DecidableEq, Repr

structure EnqueueCtx where
  exchange : String
  routingKey : String
  propBytes : Bytes
  bodyBytes : Bytes
  isPersistent : Bool
  priority : UInt8
  perMsgTtl : Option Nat
  deriving DecidableEq, Repr

inductive Effect where
  | books (change : Bookkeeping)
  | tune (queue : String) (change : Tuning)
  | tuneAll (change : Tuning)
  | alloc
  | createQueue (name : String) (q : NewQueue) (logs : Bool) (schema : Option CompiledSchema)
  | removeQueue (name : String)
  | createExchange (name : String) (kind : ExchangeType) (durable logs : Bool)
  | removeExchange (name : String)
  | bind (exchange : String) (b : Binding) (logs : Bool)
  | appendBinding (exchange : String) (b : Binding)
  | unbind (exchange queue routingKey : String)
  | enqueue (queue : String) (ctx : EnqueueCtx) (now : Instant)
  | enqueueFull (queue exchange routingKey : String) (headers body : Bytes)
  | pushFull (queue : String) (m : Message)
  | replicatePublish (queue : String) (msgId : UInt64) (body : Bytes)
  | replicateAck (queue : String) (msgId : UInt64)
  | pop (queue : String) (fate : Fate)
  | popOldest (queue : String)
  | purge (queue : String)
  | settle (queue : String) (tag : UInt64)
  | discard (queue : String) (tag : UInt64)
  | requeue (queue : String) (tag : UInt64) (counted : Bool)
  | compact
  | restart (now : Instant) (auth : AuthBackend) (cluster : Option ClusterCoordinator)

def resolveTtl (queueTtl msgTtl : Option Nat) (now : Instant) : Option Instant :=
  match queueTtl, msgTtl with
  | some qt, some pt => some (now + min qt pt)
  | some t, none => some (now + t)
  | none, some t => some (now + t)
  | none, none => none

def capPriority (requested maxPriority : UInt8) : UInt8 :=
  if maxPriority > 0 then min requested maxPriority else 0

def persistIfDurable (env : Env) (wal : SegmentCoordinator) (q : QueueState) (queue : String)
    (msgId : UInt64) (ctx : EnqueueCtx) : Option (Nat × Nat × Nat) :=
  if !q.options.durable || !ctx.isPersistent then none
  else some (wal.logEnqueue env.crc32 queue msgId ctx.exchange ctx.routingKey ctx.propBytes
    ctx.bodyBytes).2

def buildQueueMessage (msgId : UInt64) (priority : UInt8) (expiration : Option Instant)
    (diskRef : Option (Nat × Nat × Nat)) (ctx : EnqueueCtx) : QueueMessage :=
  match diskRef with
  | some (segmentId, offset, length) =>
    .ref ⟨msgId, segmentId, offset, length, priority, expiration, false, 0, ctx.exchange,
      ctx.routingKey⟩
  | none =>
    .full ⟨msgId, ctx.propBytes, ctx.bodyBytes, priority, expiration, false, 0, ctx.exchange,
      ctx.routingKey⟩

namespace QueueState

def pushBack (q : QueueState) (m : QueueMessage) : QueueState :=
  { q with messages := q.messages.pushBack m }

/-- Taking the front message. Keeping it needs its payload, so a reference that
    cannot be read any more is dropped. -/
def popTo (env : Env) (wal : SegmentCoordinator) (fate : Fate) (q : QueueState) : QueueState :=
  match q.messages.popFront with
  | none => q
  | some (qm, rest) =>
    match fate, qm.resolve env.crc32 wal with
    | .drop, _ => { q with messages := rest }
    | _, .error _ => { q with messages := rest }
    | .hold, .ok m => { q with messages := rest, inflight := q.inflight.insert m.id m }
    | .front, .ok m => { q with messages := rest.pushFront (.full m) }
    | .back, .ok m => { q with messages := rest.pushBack (.full m) }

def dropOldest (q : QueueState) : QueueState :=
  match q.messages.popOldest with
  | none => q
  | some (_, rest) => { q with messages := rest }

def release (q : QueueState) (tag : UInt64) : QueueState :=
  { q with inflight := q.inflight.erase tag }

/-- An in-flight message back to the front; a negative acknowledgement counts it
    as redelivered. -/
def putBack (q : QueueState) (tag : UInt64) (counted : Bool) : QueueState :=
  match q.inflight.get? tag with
  | none => q
  | some m =>
    let m := if counted then { m with
      redelivered := true
      deliveryCount := m.deliveryCount + 1 } else m
    { q with
      inflight := q.inflight.erase tag
      messages := q.messages.pushFront (.full m) }

end QueueState

/-- Takes every message from the front and puts the others back in that order:
    priorities stay, copies of the id go. -/
def withoutId (msgId : UInt64) (messages : PriorityQueue) : PriorityQueue :=
  (messages.ready.filter fun m => m.id != msgId).foldl PriorityQueue.pushBack .new

variable (env : Env)

def Effect.inMemory (s : BrokerState) : Effect → BrokerState
  | books change => change.apply s
  | tune queue change => s.modifyQueue queue change.apply
  | tuneAll change => { s with queues := s.queues.mapVals fun _ q => change.apply q }
  | alloc => s.allocMsgId.2
  | createQueue name q logs _ =>
    -- a logged creation is bound to the default exchange before it is logged
    let s := { s with queues := s.queues.orInsert name q.state }
    if logs then s.autoBindDefaultExchange name else s
  | removeQueue name => { s with queues := s.queues.erase name }
  | createExchange name kind durable _ =>
    { s with exchanges := s.exchanges.orInsert name (.new name kind durable) }
  | removeExchange name => { s with exchanges := s.exchanges.erase name }
  | bind exchange b _ => s.modifyExchange exchange (·.addBinding b)
  | appendBinding exchange b =>
    s.modifyExchange exchange fun ex => { ex with bindings := ex.bindings ++ [b] }
  | unbind exchange queue routingKey => s.modifyExchange exchange (·.removeBinding queue routingKey)
  | enqueue queue ctx now =>
    let (msgId, s') := s.allocMsgId
    s'.modifyQueue queue fun q =>
      let expiration := resolveTtl q.options.messageTtl ctx.perMsgTtl now
      let priority := capPriority ctx.priority q.options.maxPriority
      let diskRef := persistIfDurable env s.wal q queue msgId ctx
      { q.pushBack (buildQueueMessage msgId priority expiration diskRef ctx) with
        lastActivity := now }
  | enqueueFull queue exchange routingKey headers body =>
    let (msgId, s) := s.allocMsgId
    s.modifyQueue queue
      (·.pushBack (.full (.newRouted msgId headers body exchange routingKey)))
  | pushFull queue m => s.modifyQueue queue (·.pushBack (.full m))
  | replicatePublish queue msgId body =>
    s.modifyQueue queue (·.pushBack (.full (.newRouted msgId [] body "" "")))
  | replicateAck queue msgId =>
    s.modifyQueue queue fun q => { q with messages := withoutId msgId q.messages }
  | pop queue fate => s.modifyQueue queue (·.popTo env s.wal fate)
  | popOldest queue => s.modifyQueue queue (·.dropOldest)
  | purge queue => s.modifyQueue queue fun q => { q with messages := q.messages.clear }
  | settle queue tag => s.modifyQueue queue (·.release tag)
  | discard queue tag => s.modifyQueue queue (·.release tag)
  | requeue queue tag counted => s.modifyQueue queue (·.putBack tag counted)
  | compact => s
  | restart now auth cluster => RocketmqBroker.restart env now s.wal.dir auth cluster

def Effect.logged (s : BrokerState) : Effect → List LogRecord
  | createQueue name _ logs schema =>
    if logs then
      .declareQueue name true :: (schema.toList.map fun c =>
        .setQueueSchema c.id name c.raw c.descriptorSetBytes c.messageName)
    else []
  | createExchange name kind _ logs =>
    if logs then [.declareExchange name kind.toByte true] else []
  | bind exchange b logs => if logs then [.bind exchange b.queueName b.routingKey] else []
  | enqueue queue ctx _ =>
    match s.queues.get? queue with
    | none => []
    | some q =>
      if !q.options.durable || !ctx.isPersistent then []
      else [.enqueue queue s.nextMsgId ctx.exchange ctx.routingKey ctx.propBytes ctx.bodyBytes]
  | replicatePublish queue msgId body =>
    if s.queues.contains queue then [.enqueue queue msgId "" "" [] body] else []
  | replicateAck queue msgId => if s.queues.contains queue then [.ack msgId] else []
  | settle queue tag =>
    match s.queues.get? queue with
    | none => []
    | some q => if q.inflight.contains tag then [.ack tag] else []
  | _ => []

def exec (s : BrokerState) (e : Effect) : BrokerState :=
  match e with
  | .compact => { s with wal := compact env s.wal }
  | .restart .. => e.inMemory env s
  | _ => { e.inMemory env s with
    wal := s.wal.logAll env.crc32 ((e.logged s).map LogRecord.encode) }

theorem exec_books {env : Env} {s : BrokerState} (b : Bookkeeping) :
    exec env s (.books b) = b.apply s := by
  change { b.apply s with wal := s.wal } = b.apply s
  rw [← b.wal s]

abbrev Act := Run.Program (exec env)

end RocketmqBroker
