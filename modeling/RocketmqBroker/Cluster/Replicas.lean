import RocketmqBroker.Durability.Identity
import RocketmqBroker.Lib.Demux
import RocketmqBroker.Protocol.PropertyReader

/-!
Copies of published messages on the other members of a cluster. A node that publishes
sends the id and the body of a message to every peer, and a peer puts a message made of
these two at the back of its own queue. Ids come from the counter of each node.
-/
namespace RocketmqBroker
open Run.Program

structure ReplicaFrame where
  sender : UInt64
  receiver : UInt64
  term : UInt64
  leaderId : UInt64
  queue : String
  msgId : UInt64
  body : Bytes
  deriving DecidableEq, Repr

def ReplicaFrame.op (f : ReplicaFrame) : Op :=
  .replicatePublish f.term f.leaderId f.queue f.msgId f.body

def Op.publishes : Op → Bool
  | basicPublish _ _ _ _ => true
  | txCommit _ => true
  | publishMessage _ _ _ => true
  | _ => false

def Op.confirms (s : BrokerState) : Op → Bool
  | basicPublish connId channel _ _ => (s.channel? connId channel).any (·.confirmMode)
  | _ => false

namespace Effect

def stores (s : BrokerState) : Effect → Option (String × Message)
  | enqueue queue ctx now => (s.queues.get? queue).map fun q =>
    (queue, ⟨s.nextMsgId, ctx.propBytes, ctx.bodyBytes,
      capPriority ctx.priority q.options.maxPriority,
      resolveTtl q.options.messageTtl ctx.perMsgTtl now, false, 0, ctx.exchange, ctx.routingKey⟩)
  | enqueueFull queue exchange routingKey headers body => (s.queues.get? queue).map fun _ =>
    (queue, .newRouted s.nextMsgId headers body exchange routingKey)
  | _ => none

/-- What is replicated: a message that was stored, and, when it is to be confirmed, one
    for a queue that is gone as well. -/
def replicates (s : BrokerState) (confirmed : Bool) : Effect → Option (String × UInt64 × Bytes)
  | enqueue queue ctx _ =>
    if confirmed || s.queues.contains queue then some (queue, s.nextMsgId, ctx.bodyBytes) else none
  | _ => none

def keepsReady : Effect → Bool
  | books _ => true
  | tune _ _ => true
  | tuneAll _ => true
  | alloc => true
  | createQueue _ _ _ _ => true
  | createExchange _ _ _ _ => true
  | removeExchange _ => true
  | bind _ _ _ => true
  | appendBinding _ _ => true
  | unbind _ _ _ => true
  | settle _ _ => true
  | discard _ _ => true
  | compact => true
  | _ => false

end Effect

def BrokerState.ready (s : BrokerState) (queue : String) : List QueueMessage :=
  ((s.queues.get? queue).map (·.messages.ready)).getD []

def allocatedIn (env : Env) : BrokerState → List Effect → List UInt64
  | _, [] => []
  | s, e :: es => (if e.allocates then [s.nextMsgId] else []) ++ allocatedIn env (exec env s e) es

structure Content where
  id : UInt64
  properties : BasicProperties
  exchange : String
  routingKey : String
  priority : UInt8
  body : Bytes

def Message.content (m : Message) : Content :=
  ⟨m.id, m.properties, m.exchange, m.routingKey, m.priority, m.body⟩

def QueueMessage.content? (env : Env) (wal : SegmentCoordinator) (qm : QueueMessage) :
    Option Content := (qm.resolve env.crc32 wal).toOption.map Message.content

def inQueueOrder (ms : List Message) : List QueueMessage :=
  (ms.foldl (fun q m => q.pushBack (.full m)) PriorityQueue.new).ready

/-- The brokers of a cluster, the replicas on their way, and, for the record, what each
    node has published to each queue and the ids it has allocated. -/
structure BrokerCluster where
  nodes : UInt64 → BrokerState
  net : List ReplicaFrame
  published : UInt64 → String → List Message
  allocated : UInt64 → List UInt64

/-- How a node was before the run: its users, its cluster and what it was asked for. -/
structure NodeSetup where
  auth : AuthBackend
  cluster : Option ClusterCoordinator
  ops : List Op

inductive ReplicaEvent where
  | publish (node : UInt64) (op : Op) (publishes : op.publishes = true)
  /-- The frame at a position of the net arrives. -/
  | deliver (k : Nat)

namespace BrokerCluster
variable (env : Env) (members : List UInt64)

def start (setup : UInt64 → NodeSetup) : BrokerCluster where
  nodes x := reached env (setup x).auth (setup x).cluster (setup x).ops
  net := []
  published _ _ := []
  allocated x := allocatedIn env (install env (setup x).auth (setup x).cluster)
    (history env (setup x).auth (setup x).cluster (setup x).ops)

/-- The frames that go out with a step, one to each peer. -/
def frames (o : BrokerCluster) (x : UInt64) (confirmed : Bool) (e : Effect) : List ReplicaFrame :=
  match e.replicates (o.nodes x) confirmed, (o.nodes x).cluster with
  | some (queue, msgId, body), some c => (members.dedup.filter (· ≠ x)).map fun p =>
    ⟨x, p, c.currentTerm, c.nodeId, queue, msgId, body⟩
  | _, _ => []

def act (x : UInt64) (confirmed : Bool) (o : BrokerCluster) (e : Effect) : BrokerCluster where
  nodes := Function.update o.nodes x (exec env (o.nodes x) e)
  net := o.net ++ o.frames members x confirmed e
  published y queue := o.published y queue ++
    ((e.stores (o.nodes x)).filter fun d => x = y ∧ d.1 = queue).toList.map Prod.snd
  allocated :=
    if e.allocates then Function.update o.allocated x ((o.nodes x).nextMsgId :: o.allocated x)
    else o.allocated

def step (o : BrokerCluster) : ReplicaEvent → BrokerCluster
  | .publish x op _ =>
    if x ∈ members then
      Run.run (act env members x (op.confirms (o.nodes x))) o
        ((handle op : Act env (List Frame)).steps (o.nodes x))
    else o
  | .deliver k =>
    match o.net[k]? with
    | none => o
    | some f => { o with
      nodes := Function.update o.nodes f.receiver
        ((handle f.op : Act env (List Frame)).final (o.nodes f.receiver))
      net := o.net.eraseIdx k }

def after (setup : UInt64 → NodeSetup) (es : List ReplicaEvent) : BrokerCluster :=
  Run.run (step env members) (start env setup) es

def idsOf (o : BrokerCluster) (x : UInt64) (queue : String) : List UInt64 :=
  (o.published x queue).map Message.id

/-- The copy of a queue that a peer has holds one replica for each message that a node
    has published to the queue, with its content and in the order of the queue, and under
    an id that the peer has not given to a message itself. -/
structure Replicated (o : BrokerCluster) (x p : UInt64) (queue : String) : Prop where
  copies : (((o.nodes p).ready queue).filter (·.id ∈ o.idsOf x queue)).map
      (·.content? env (o.nodes p).wal) =
    (inQueueOrder (o.published x queue)).map (·.content? env (o.nodes p).wal)
  apart : ∀ m ∈ o.published x queue, m.id ∉ o.allocated p

def Unclaimed (o : BrokerCluster) (x msgId : UInt64) : Prop :=
  ∀ p ∈ members, p ≠ x → msgId ∉ o.allocated p

instance (o : BrokerCluster) (x msgId : UInt64) : Decidable (o.Unclaimed members x msgId) :=
  List.decidableBAll _ _

end BrokerCluster

structure Message.Bare (m : Message) : Prop where
  properties : m.properties.flags = 0
  exchange : m.exchange = ""
  routingKey : m.routingKey = ""
  priority : m.priority = 0

instance (m : Message) : Decidable m.Bare :=
  decidable_of_iff (m.properties.flags = 0 ∧ m.exchange = "" ∧ m.routingKey = "" ∧ m.priority = 0)
    ⟨fun h => ⟨h.1, h.2.1, h.2.2.1, h.2.2.2⟩,
      fun h => ⟨h.properties, h.exchange, h.routingKey, h.priority⟩⟩

namespace BrokerCluster
variable (env : Env) (members : List UInt64)

/-- A step that publishes bare messages under ids that are new to the cluster, all of
    them replicated, and takes no replica from a queue. -/
def Replicable (x : UInt64) (confirmed : Bool) (o : BrokerCluster) (e : Effect) : Prop :=
  (e.allocates = true → o.Unclaimed members x (o.nodes x).nextMsgId) ∧
  match e with
  | .enqueue queue _ _ =>
    if (o.nodes x).queues.contains queue then
      (o.nodes x).cluster.isSome = true ∧
      (∀ p ∈ members, p ≠ x →
        (o.nodes x).nextMsgId ∉ ((o.nodes p).ready queue).map QueueMessage.id) ∧
      ∀ d ∈ e.stores (o.nodes x), d.2.Bare
    else confirmed = false
  | .enqueueFull queue _ _ _ _ => (o.nodes x).queues.contains queue = false
  | .popOldest queue => ∀ q ∈ (o.nodes x).queues.get? queue, ∀ oldest ∈ q.messages.popOldest,
    ∀ y ∈ members, y ≠ x → oldest.1.id ∉ o.idsOf y queue
  | e => e.keepsReady = true

instance (x : UInt64) (confirmed : Bool) (o : BrokerCluster) (e : Effect) :
    Decidable (o.Replicable members x confirmed e) := by
  unfold Replicable
  have bare (s : BrokerState) (e : Effect) : Decidable (∀ d ∈ e.stores s, d.2.Bare) :=
    Option.decidableForallMem _
  have unheld (queue : String) : Decidable (∀ p ∈ members, p ≠ x →
      (o.nodes x).nextMsgId ∉ ((o.nodes p).ready queue).map QueueMessage.id) :=
    List.decidableBAll _ _
  have others (queue : String) (id : UInt64) :
      Decidable (∀ y ∈ members, y ≠ x → id ∉ o.idsOf y queue) := List.decidableBAll _ _
  have spared (q : QueueState) (queue : String) : Decidable (∀ oldest ∈ q.messages.popOldest,
      ∀ y ∈ members, y ≠ x → oldest.1.id ∉ o.idsOf y queue) := Option.decidableForallMem _
  have evicts (queue : String) : Decidable (∀ q ∈ (o.nodes x).queues.get? queue,
      ∀ oldest ∈ q.messages.popOldest, ∀ y ∈ members, y ≠ x → oldest.1.id ∉ o.idsOf y queue) :=
    Option.decidableForallMem _
  apply Effect.casesOn (motive := fun e => Decidable ((e.allocates = true → _) ∧ _)) e <;>
    intros <;> dsimp only <;> infer_instance

/-- The peer has the queue, and its term is not newer. -/
def Accepts (s : BrokerState) (f : ReplicaFrame) : Bool :=
  s.queues.contains f.queue && s.cluster.any fun c => c.currentTerm ≤ f.term

/-- Messages are published as above, and every frame arrives at a peer that takes it,
    after those that the sender sent it before for the same queue. -/
def Faithful (o : BrokerCluster) : ReplicaEvent → Prop
  | .publish x op _ => x ∈ members →
    let confirmed := op.confirms (o.nodes x)
    Run.Along (act env members x confirmed) (Replicable members x confirmed) o
      ((handle op : Act env (List Frame)).steps (o.nodes x))
  | .deliver k => ∀ f ∈ o.net[k]?, Accepts (o.nodes f.receiver) f = true ∧
    ∀ g ∈ o.net.take k, ¬ (g.sender = f.sender ∧ g.receiver = f.receiver ∧ g.queue = f.queue)

instance (o : BrokerCluster) (e : ReplicaEvent) : Decidable (o.Faithful env members e) := by
  unfold Faithful
  split
  · infer_instance
  · exact Option.decidableForallMem _

end BrokerCluster

section
variable {env : Env} {s : BrokerState} {e : Effect}

theorem ready_modifyQueue (s : BrokerState) (queue name : String) (f : QueueState → QueueState) :
    (s.modifyQueue queue f).ready name =
      if name = queue then ((s.queues.get? queue).map fun q => (f q).messages.ready).getD []
      else s.ready name := by
  unfold BrokerState.ready
  rw [get?_modifyQueue]
  split
  · rename_i same
    rw [same, Option.map_map]
    rfl
  · rfl

theorem ready_modifyQueue_kept {queue : String} {f : QueueState → QueueState}
    (kept : ∀ q, (f q).messages = q.messages) (name : String) :
    (s.modifyQueue queue f).ready name = s.ready name := by
  rw [ready_modifyQueue]
  split
  · rename_i same
    rw [same, BrokerState.ready]
    simp only [kept]
  · rfl

theorem ready_exec (env : Env) (s : BrokerState) (e : Effect) (name : String) :
    (exec env s e).ready name = (e.inMemory env s).ready name := by
  unfold BrokerState.ready
  rw [(exec_memory env s e).1]

theorem ready_orInsert {q : NewQueue} (queue name : String) :
    BrokerState.ready { s with queues := s.queues.orInsert queue q.state } name = s.ready name := by
  unfold BrokerState.ready
  simp only [FinMap.get?_orInsert]
  split
  · rename_i same
    rw [same]
    cases s.queues.get? queue with
    | none =>
      simp only [Option.getD_none, Option.map_some, Option.getD_some, Option.map_none, q.messages]
      rfl
    | some old => rfl
  · rfl

theorem ready_kept (kept : e.keepsReady = true) (name : String) :
    (exec env s e).ready name = s.ready name := by
  rw [ready_exec]
  cases e with
  | books change =>
    unfold BrokerState.ready
    rw [show (Effect.inMemory env s (.books change)).queues = s.queues from change.queues s]
  | tune queue change => exact ready_modifyQueue_kept change.messages name
  | tuneAll change =>
    unfold BrokerState.ready
    simp only [Effect.inMemory, FinMap.get?_mapVals, Option.map_map]
    congr 1
    exact Option.map_congr fun q _ => congrArg PriorityQueue.ready (change.messages q)
  | createQueue queue q logs schema => cases logs <;> exact ready_orInsert queue name
  | settle queue tag | discard queue tag => exact ready_modifyQueue_kept (fun _ => by rfl) name
  | alloc | createExchange | removeExchange | bind | appendBinding | unbind | compact => rfl
  | enqueue | enqueueFull | pushFull | replicatePublish | replicateAck | pop | popOldest | purge
  | requeue | removeQueue | restart => contradiction

theorem ready_modifyQueue_missing {queue : String} (missing : s.queues.contains queue = false)
    (f : QueueState → QueueState) (name : String) :
    (s.modifyQueue queue f).ready name = s.ready name := by
  have none : s.queues.get? queue = none :=
    Option.isNone_iff_eq_none.mp (Option.isSome_eq_false_iff.mp missing)
  rw [ready_modifyQueue]
  split
  · rename_i same
    rw [same, BrokerState.ready, none]
    rfl
  · rfl

theorem ready_pushed {queue : String} {q : QueueState} (found : s.queues.get? queue = some q)
    {f : QueueState → QueueState} {qm : QueueMessage}
    (pushes : (f q).messages = q.messages.pushBack qm) {keep : QueueMessage → Bool}
    (other : keep qm = false) (name : String) :
    ((s.modifyQueue queue f).ready name).filter keep = (s.ready name).filter keep := by
  rw [ready_modifyQueue]
  split
  · rename_i same
    obtain ⟨front, back, before, after⟩ := q.messages.ready_pushBack_between qm
    rw [same, BrokerState.ready, found, Option.map_some, Option.map_some, Option.getD_some,
      Option.getD_some, pushes, before, after, List.filter_append, List.filter_append,
      List.filter_cons_of_neg (by rw [other]; exact Bool.false_ne_true)]
  · rfl

theorem ready_evicted {queue name : String} {keep : QueueMessage → Bool}
    (other : name = queue → ∀ q ∈ s.queues.get? queue, ∀ oldest ∈ q.messages.popOldest,
      keep oldest.1 = false) :
    ((s.modifyQueue queue (·.dropOldest)).ready name).filter keep = (s.ready name).filter keep := by
  rw [ready_modifyQueue]
  split
  · rename_i same
    rw [same, BrokerState.ready]
    cases found : s.queues.get? queue with
    | none => rfl
    | some q =>
      rw [Option.map_some, Option.map_some, Option.getD_some, Option.getD_some]
      unfold QueueState.dropOldest
      cases popped : q.messages.popOldest with
      | none => rfl
      | some oldest =>
        obtain ⟨m, rest⟩ := oldest
        have gone : keep m = false := other same q found (m, rest) popped
        have fewer := (PriorityQueue.ready_popOldest popped).filter keep
        have contents := PriorityQueue.contents_popOldest popped
        rw [PriorityQueue.contents_eq_ready, PriorityQueue.contents_eq_ready] at contents
        have perm : q.messages.ready.Perm (m :: rest.ready) := Multiset.coe_eq_coe.mp contents
        refine fewer.eq_of_length ?_
        rw [(perm.filter keep).length_eq, List.filter_cons_of_neg (by
          rw [gone]
          exact Bool.false_ne_true)]
  · rfl

theorem acceptTerm_accepts (env : Env) {c : ClusterCoordinator} (found : s.cluster = some c)
    {term : UInt64}
    (current : c.currentTerm ≤ term) (leaderId : UInt64) :
    (acceptTerm term leaderId : Act env Bool).result s = true ∧
      ((acceptTerm term leaderId : Act env Bool).final s).queues = s.queues := by
  have looked : (look fun s : BrokerState => s.cluster : Act env _).result s = some c := found
  unfold acceptTerm
  rw [result_bind, final_bind, looked]
  dsimp only
  rw [if_neg (UInt64.not_lt.mpr current)]
  split <;> exact ⟨rfl, rfl⟩

def ReplicaFrame.copy (f : ReplicaFrame) : QueueMessage :=
  .full (.newRouted f.msgId [] f.body "" "")

/-- An accepted frame puts its copy at the back, since copies have the lowest priority. -/
theorem ready_arrives {f : ReplicaFrame} (accepts : BrokerCluster.Accepts s f = true)
    (name : String) :
    ((handle f.op : Act env (List Frame)).final s).ready name =
      if name = f.queue then s.ready f.queue ++ [f.copy] else s.ready name := by
  obtain ⟨known, current⟩ := Bool.and_eq_true_iff.mp accepts
  obtain ⟨q, here⟩ := Option.isSome_iff_exists.mp known
  obtain ⟨c, found, current⟩ := (Option.any_eq_true _ _).mp current
  obtain ⟨accepted, queues⟩ := acceptTerm_accepts env found (of_decide_eq_true current)
    f.leaderId
  have pushed : ((handle f.op : Act env (List Frame)).final s) =
      exec env ((acceptTerm f.term f.leaderId : Act env Bool).final s)
        (.replicatePublish f.queue f.msgId f.body) := by
    change ((replicatePublish f.term f.leaderId f.queue f.msgId f.body : Act env _).final s) = _
    have looked : (look fun s : BrokerState => s.queues.contains f.queue : Act env Bool).result
        ((acceptTerm f.term f.leaderId : Act env Bool).final s) = true := by
      change ((acceptTerm f.term f.leaderId : Act env Bool).final s).queues.contains f.queue = true
      rw [queues]
      exact known
    unfold replicatePublish
    rw [final_bind, final_bind, accepted, looked]
    rfl
  rw [pushed, ready_exec]
  change (BrokerState.modifyQueue _ f.queue (·.pushBack f.copy)).ready name = _
  rw [ready_modifyQueue]
  unfold BrokerState.ready
  rw [queues, here]
  split
  · exact PriorityQueue.ready_pushBack rfl
  · rfl

end

def Message.copy (m : Message) : QueueMessage := .full (.newRouted m.id [] m.body "" "")

namespace BrokerCluster
variable {env : Env} {members : List UInt64} {o : BrokerCluster} {x : UInt64} {confirmed : Bool}
  {e : Effect}

def pending (o : BrokerCluster) (x p : UInt64) (queue : String) : List ReplicaFrame :=
  o.net.filter fun f => f.sender == x && f.receiver == p && f.queue == queue

/-- What a peer has of another node's messages, and then what is on its way to it, are
    the copies of all that were published. -/
structure Mirrors (members : List UInt64) (o : BrokerCluster) : Prop where
  relayed : ∀ x ∈ members, ∀ p ∈ members, x ≠ p → ∀ queue,
    ((o.nodes p).ready queue).filter (·.id ∈ o.idsOf x queue) ++
        (o.pending x p queue).map ReplicaFrame.copy =
      (o.published x queue).map Message.copy
  bare : ∀ x queue, ∀ m ∈ o.published x queue, m.Bare
  own : ∀ x queue, ∀ m ∈ o.published x queue, m.id ∈ o.allocated x
  apart : ∀ x ∈ members, ∀ p ∈ members, x ≠ p → ∀ queue, ∀ m ∈ o.published x queue,
    m.id ∉ o.allocated p
  sent : ∀ f ∈ o.net, f.sender ∈ members ∧ f.receiver ∈ members ∧ f.sender ≠ f.receiver

theorem mem_allocated_act {y id : UInt64}
    (member : id ∈ (o.act env members x confirmed e).allocated y) :
    id ∈ o.allocated y ∨ y = x ∧ e.allocates = true ∧ id = (o.nodes x).nextMsgId := by
  unfold act at member
  dsimp only at member
  split at member
  · rename_i allocates
    rw [Function.update_apply] at member
    split at member
    · rename_i same
      cases List.mem_cons.mp member with
      | inl new => exact .inr ⟨same, allocates, new⟩
      | inr old => exact .inl (same ▸ old)
    · exact .inl member
  · exact .inl member

theorem allocated_act_grows {y id : UInt64} (member : id ∈ o.allocated y) :
    id ∈ (o.act env members x confirmed e).allocated y := by
  unfold act
  dsimp only
  split
  · rw [Function.update_apply]
    split
    · rename_i same
      exact List.mem_cons_of_mem _ (same ▸ member)
    · exact member
  · exact member

/-- A new id is in no way confused with what the others have published. -/
theorem Mirrors.apart_act (mirrors : o.Mirrors members)
    (unclaimed : e.allocates = true → o.Unclaimed members x (o.nodes x).nextMsgId) {y p : UInt64}
    (y_member : y ∈ members) (p_member : p ∈ members) (distinct : y ≠ p) {queue : String}
    {m : Message} (published : m ∈ o.published y queue) :
    m.id ∉ (o.act env members x confirmed e).allocated p := by
  intro claimed
  obtain old | ⟨rfl, allocates, new⟩ := mem_allocated_act claimed
  · exact mirrors.apart y y_member p p_member distinct queue m published old
  · have own := mirrors.own y queue m published
    rw [new] at own
    exact unclaimed allocates y y_member distinct own

theorem Mirrors.unpublished (mirrors : o.Mirrors members)
    (unclaimed : e.allocates = true → o.Unclaimed members x (o.nodes x).nextMsgId)
    (stores : e.stores (o.nodes x) = none) (sends : o.frames members x confirmed e = [])
    (kept : ∀ y ∈ members, y ≠ x → ∀ queue,
      ((exec env (o.nodes x) e).ready queue).filter (·.id ∈ o.idsOf y queue) =
        ((o.nodes x).ready queue).filter (·.id ∈ o.idsOf y queue)) :
    (o.act env members x confirmed e).Mirrors members := by
  have published : (o.act env members x confirmed e).published = o.published := by
    funext y queue
    unfold act
    rw [stores]
    exact List.append_nil _
  have net : (o.act env members x confirmed e).net = o.net := by
    unfold act
    rw [sends]
    exact List.append_nil _
  refine ⟨fun y y_member p p_member distinct queue => ?_, ?_, ?_, ?_, ?_⟩
  · have before := mirrors.relayed y y_member p p_member distinct queue
    unfold idsOf pending at *
    rw [published, net]
    refine Eq.trans ?_ before
    congr 1
    change (((Function.update o.nodes x (exec env (o.nodes x) e)) p).ready queue).filter _ = _
    rw [Function.update_apply]
    split
    · rename_i same
      subst same
      exact kept y y_member distinct queue
    · rfl
  · rw [published]
    exact mirrors.bare
  · rw [published]
    intro y queue m member
    exact allocated_act_grows (mirrors.own y queue m member)
  · rw [published]
    intro y y_member p p_member distinct queue m member
    exact mirrors.apart_act unclaimed y_member p_member distinct member
  · rw [net]
    exact mirrors.sent

theorem published_act {y : UInt64} {name queue : String} {m : Message}
    (stores : e.stores (o.nodes x) = some (queue, m)) :
    (o.act env members x confirmed e).published y name =
      o.published y name ++ if x = y ∧ queue = name then [m] else [] := by
  unfold act
  dsimp only
  rw [stores, Option.filter_some]
  by_cases here : x = y ∧ queue = name
  · rw [if_pos here, if_pos (decide_eq_true here)]
    rfl
  · rw [if_neg here, if_neg (by rw [decide_eq_true_eq]; exact here)]
    rfl

theorem mem_published_act {y : UInt64} {name queue : String} {m m' : Message}
    (stores : e.stores (o.nodes x) = some (queue, m))
    (member : m' ∈ (o.act env members x confirmed e).published y name) :
    m' ∈ o.published y name ∨ x = y ∧ m' = m := by
  rw [published_act stores] at member
  cases List.mem_append.mp member with
  | inl old => exact .inl old
  | inr last =>
    split at last
    · rename_i here
      exact .inr ⟨here.1, List.mem_singleton.mp last⟩
    · cases last

theorem idsOf_act {y : UInt64} {name queue : String} {m : Message}
    (stores : e.stores (o.nodes x) = some (queue, m)) :
    (o.act env members x confirmed e).idsOf y name =
      o.idsOf y name ++ if x = y ∧ queue = name then [m.id] else [] := by
  unfold idsOf
  rw [published_act stores, List.map_append]
  split <;> rfl

theorem pending_act {y p : UInt64} {name queue : String} {id term leaderId : UInt64} {body : Bytes}
    (p_member : p ∈ members) (distinct : y ≠ p)
    (sends : o.frames members x confirmed e = (members.dedup.filter (· ≠ x)).map fun p =>
      ⟨x, p, term, leaderId, queue, id, body⟩) :
    (o.act env members x confirmed e).pending y p name =
      o.pending y p name ++ if x = y ∧ queue = name then [⟨x, p, term, leaderId, queue, id, body⟩]
        else [] := by
  unfold act pending
  dsimp only
  rw [sends, List.filter_append]
  congr 1
  split
  · rename_i here
    obtain ⟨rfl, rfl⟩ := here
    have peer : p ∈ members.dedup.filter (· ≠ x) :=
      List.mem_filter.mpr ⟨List.mem_dedup.mpr p_member, decide_eq_true (Ne.symm distinct)⟩
    refine InFlight.filter_broadcast ((List.nodup_dedup _).filter _) peer _ fun q _ => ?_
    simp only [beq_self_eq_true, Bool.true_and, Bool.and_true]
    rfl
  · rename_i elsewhere
    refine List.filter_eq_nil_iff.mpr fun f member => ?_
    obtain ⟨q, _, rfl⟩ := List.mem_map.mp member
    simp only [Bool.and_eq_true, beq_iff_eq]
    rintro ⟨⟨sender, _⟩, name⟩
    exact elsewhere ⟨sender, name⟩

theorem Mirrors.ready_published (mirrors : o.Mirrors members) {queue : String} {m : Message}
    (stores : e.stores (o.nodes x) = some (queue, m)) (new : m.id = (o.nodes x).nextMsgId)
    (unclaimed : o.Unclaimed members x (o.nodes x).nextMsgId)
    (unheld : ∀ p ∈ members, p ≠ x → m.id ∉ ((o.nodes p).ready queue).map QueueMessage.id)
    (kept : ∀ keep : QueueMessage → Bool, (∀ qm : QueueMessage, qm.id = m.id → keep qm = false) →
      ∀ name, ((exec env (o.nodes x) e).ready name).filter keep =
        ((o.nodes x).ready name).filter keep)
    {y p : UInt64} (y_member : y ∈ members) (p_member : p ∈ members) (distinct : y ≠ p)
    (name : String) :
    (((o.act env members x confirmed e).nodes p).ready name).filter
        (·.id ∈ (o.act env members x confirmed e).idsOf y name) =
      ((o.nodes p).ready name).filter (·.id ∈ o.idsOf y name) := by
  have nodes : (o.act env members x confirmed e).nodes p =
      if p = x then exec env (o.nodes x) e else o.nodes p := Function.update_apply _ _ _ _
  rw [nodes, idsOf_act stores]
  by_cases here : x = y ∧ queue = name
  · obtain ⟨rfl, rfl⟩ := here
    rw [if_neg (Ne.symm distinct), if_pos ⟨rfl, rfl⟩]
    refine List.filter_congr fun qm member => ?_
    have other : qm.id ≠ m.id := by
      intro same
      exact unheld p p_member (Ne.symm distinct) (List.mem_map.mpr ⟨qm, member, same⟩)
    simp [other]
  · rw [if_neg here, List.append_nil]
    split
    · rename_i same
      subst same
      refine kept _ (fun qm same => ?_) name
      rw [decide_eq_false_iff_not, same, new]
      intro known
      obtain ⟨m', published, id⟩ := List.mem_map.mp known
      have own := mirrors.own y name m' published
      rw [id] at own
      exact unclaimed y y_member distinct own
    · rfl

theorem Mirrors.published (mirrors : o.Mirrors members) (x_member : x ∈ members) {queue : String}
    {m : Message} (stores : e.stores (o.nodes x) = some (queue, m)) (bare : m.Bare)
    (allocates : e.allocates = true) (new : m.id = (o.nodes x).nextMsgId)
    (unclaimed : o.Unclaimed members x (o.nodes x).nextMsgId)
    (unheld : ∀ p ∈ members, p ≠ x → m.id ∉ ((o.nodes p).ready queue).map QueueMessage.id)
    (term leaderId : UInt64)
    (sends : o.frames members x confirmed e = (members.dedup.filter (· ≠ x)).map fun p =>
      ⟨x, p, term, leaderId, queue, m.id, m.body⟩)
    (kept : ∀ keep : QueueMessage → Bool, (∀ qm : QueueMessage, qm.id = m.id → keep qm = false) →
      ∀ name, ((exec env (o.nodes x) e).ready name).filter keep =
        ((o.nodes x).ready name).filter keep) :
    (o.act env members x confirmed e).Mirrors members := by
  refine ⟨fun y y_member p p_member distinct name => ?_, fun y name m' member => ?_,
    fun y name m' member => ?_, fun y y_member p p_member distinct name m' member => ?_,
    fun f member => ?_⟩
  · have before := mirrors.relayed y y_member p p_member distinct name
    rw [mirrors.ready_published stores new unclaimed unheld kept y_member p_member distinct,
      published_act stores, pending_act p_member distinct sends, List.map_append,
      List.map_append, ← before, List.append_assoc]
    split <;> rfl
  · obtain old | ⟨-, rfl⟩ := mem_published_act stores member
    · exact mirrors.bare y name m' old
    · exact bare
  · obtain old | ⟨rfl, rfl⟩ := mem_published_act stores member
    · exact allocated_act_grows (mirrors.own y name m' old)
    · unfold act
      dsimp only
      rw [if_pos allocates, Function.update_self, new]
      exact List.mem_cons_self
  · obtain old | ⟨rfl, rfl⟩ := mem_published_act stores member
    · exact mirrors.apart_act (fun _ => unclaimed) y_member p_member distinct old
    · intro claimed
      obtain old | ⟨same, -⟩ := mem_allocated_act claimed
      · rw [new] at old
        exact unclaimed p p_member (Ne.symm distinct) old
      · exact distinct same.symm
  · unfold act at member
    dsimp only at member
    rw [sends] at member
    cases List.mem_append.mp member with
    | inl old => exact mirrors.sent f old
    | inr out =>
      obtain ⟨p, peer, rfl⟩ := List.mem_map.mp out
      obtain ⟨p_member, other⟩ := List.mem_filter.mp peer
      exact ⟨x_member, List.mem_dedup.mp p_member, Ne.symm (of_decide_eq_true other)⟩

theorem replicates_enqueue {s : BrokerState} {queue : String} {ctx : EnqueueCtx} {now : Instant} :
    (Effect.enqueue queue ctx now).replicates s confirmed =
      if confirmed || s.queues.contains queue then some (queue, s.nextMsgId, ctx.bodyBytes)
      else none := rfl

theorem Mirrors.enqueued (mirrors : o.Mirrors members) (x_member : x ∈ members) {queue : String}
    {ctx : EnqueueCtx} {now : Instant} {q : QueueState}
    (found : (o.nodes x).queues.get? queue = some q)
    (replicable : o.Replicable members x confirmed (.enqueue queue ctx now)) :
    (o.act env members x confirmed (.enqueue queue ctx now)).Mirrors members := by
  obtain ⟨unclaimed, replicable⟩ := replicable
  have known : (o.nodes x).queues.contains queue = true := congrArg Option.isSome found
  dsimp only at replicable
  rw [if_pos known] at replicable
  obtain ⟨clustered, unheld, bare⟩ := replicable
  obtain ⟨c, cluster⟩ := Option.isSome_iff_exists.mp clustered
  have stores := congrArg (Option.map fun q : QueueState => (queue,
    (⟨(o.nodes x).nextMsgId, ctx.propBytes, ctx.bodyBytes,
      capPriority ctx.priority q.options.maxPriority,
      resolveTtl q.options.messageTtl ctx.perMsgTtl now, false, 0, ctx.exchange,
      ctx.routingKey⟩ : Message))) found
  refine mirrors.published x_member stores (bare _ stores) rfl rfl (unclaimed rfl) unheld
    c.currentTerm c.nodeId ?_ fun keep other name => ?_
  · unfold frames
    rw [replicates_enqueue, known, Bool.or_true, if_pos rfl, cluster]
  · rw [ready_exec]
    exact ready_pushed (s := (o.nodes x).allocMsgId.2) found (by rfl)
      (other _ (buildQueueMessage_id _ _ _ _ _)) name

/-- A replicable step keeps the copies that others have. -/
theorem Mirrors.act (mirrors : o.Mirrors members) (x_member : x ∈ members)
    (replicable : o.Replicable members x confirmed e) :
    (o.act env members x confirmed e).Mirrors members := by
  have unclaimed := replicable.1
  have still {e : Effect} (kept : e.keepsReady = true) (stores : e.stores (o.nodes x) = none)
      (sends : o.frames members x confirmed e = [])
      (unclaimed : e.allocates = true → o.Unclaimed members x (o.nodes x).nextMsgId) :
      (o.act env members x confirmed e).Mirrors members :=
    mirrors.unpublished unclaimed stores sends fun _ _ _ queue =>
      congrArg (List.filter _) (ready_kept kept queue)
  cases e with
  | enqueue queue ctx now =>
    cases found : (o.nodes x).queues.get? queue with
    | some q => exact mirrors.enqueued x_member found replicable
    | none =>
      have missing : (o.nodes x).queues.contains queue = false := congrArg Option.isSome found
      have unconfirmed : confirmed = false := by
        have rest := replicable.2
        dsimp only at rest
        rwa [if_neg (by rw [missing]; exact Bool.false_ne_true)] at rest
      refine mirrors.unpublished unclaimed (congrArg (Option.map _) found) ?_ fun _ _ _ name => ?_
      · unfold frames
        rw [replicates_enqueue, missing, unconfirmed]
        rfl
      · rw [ready_exec]
        exact congrArg (List.filter _)
          (ready_modifyQueue_missing (s := (o.nodes x).allocMsgId.2) missing _ name)
  | enqueueFull queue exchange routingKey headers body =>
    have missing : (o.nodes x).queues.contains queue = false := replicable.2
    have found : (o.nodes x).queues.get? queue = none :=
      Option.isNone_iff_eq_none.mp (Option.isSome_eq_false_iff.mp missing)
    refine mirrors.unpublished unclaimed (congrArg (Option.map _) found) rfl fun _ _ _ name => ?_
    rw [ready_exec]
    exact congrArg (List.filter _)
      (ready_modifyQueue_missing (s := (o.nodes x).allocMsgId.2) missing _ name)
  | popOldest queue =>
    refine mirrors.unpublished unclaimed rfl rfl fun y y_member distinct name => ?_
    rw [ready_exec]
    refine ready_evicted fun same q found oldest popped => decide_eq_false ?_
    subst same
    exact replicable.2 q found oldest popped y y_member distinct
  | books | tune | tuneAll | alloc | createQueue | createExchange | removeExchange | bind
  | appendBinding | unbind | settle | discard | compact => exact still rfl rfl rfl unclaimed
  | pushFull | replicatePublish | replicateAck | pop | purge | requeue | removeQueue | restart =>
    exact absurd replicable.2 Bool.false_ne_true

theorem Mirrors.published_run (mirrors : o.Mirrors members) (x_member : x ∈ members)
    {es : List Effect}
    (along : Run.Along (BrokerCluster.act env members x confirmed)
      (Replicable members x confirmed) o es) :
    (Run.run (BrokerCluster.act env members x confirmed) o es).Mirrors members :=
  Run.invariant (fun _ o => o.Mirrors members) mirrors
    (fun _ _ _ replicable mirrors => mirrors.act x_member replicable) along

section
variable {k : Nat} {f : ReplicaFrame}

theorem Mirrors.original (mirrors : o.Mirrors members) (member : f ∈ o.net) :
    ∃ m ∈ o.published f.sender f.queue, m.copy = f.copy := by
  obtain ⟨sender, receiver, distinct⟩ := mirrors.sent f member
  have relayed := mirrors.relayed _ sender _ receiver distinct f.queue
  have waiting : f ∈ o.pending f.sender f.receiver f.queue :=
    List.mem_filter.mpr ⟨member, by simp only [beq_self_eq_true, Bool.and_self]⟩
  refine List.mem_map.mp ?_
  rw [← relayed]
  exact List.mem_append_right _ (List.mem_map_of_mem waiting)

theorem Mirrors.delivered (mirrors : o.Mirrors members) (found : o.net[k]? = some f)
    (accepts : Accepts (o.nodes f.receiver) f = true)
    (first : ∀ g ∈ o.net.take k,
      ¬ (g.sender = f.sender ∧ g.receiver = f.receiver ∧ g.queue = f.queue)) :
    Mirrors members { o with
      nodes := Function.update o.nodes f.receiver
        ((handle f.op : Act env (List Frame)).final (o.nodes f.receiver))
      net := o.net.eraseIdx k } := by
  have member := List.mem_of_getElem? found
  obtain ⟨sender, receiver, -⟩ := mirrors.sent f member
  obtain ⟨m, published, copy⟩ := mirrors.original member
  have id : m.id = f.copy.id := congrArg QueueMessage.id copy
  refine ⟨fun y y_member p p_member distinct name => ?_, mirrors.bare, mirrors.own, mirrors.apart,
    fun g later => mirrors.sent g (List.mem_of_mem_eraseIdx later)⟩
  have before := mirrors.relayed y y_member p p_member distinct name
  change ((Function.update o.nodes _ _ p).ready name).filter (·.id ∈ o.idsOf y name) ++
    ((o.net.eraseIdx k).filter _).map ReplicaFrame.copy = _
  rw [Function.update_apply]
  by_cases here : f.sender = y ∧ f.receiver = p ∧ f.queue = name
  · -- the frame is the next one of its channel
    obtain ⟨rfl, rfl, rfl⟩ := here
    have next := InFlight.filter_first
      (fun g => g.sender == f.sender && g.receiver == f.receiver && g.queue == f.queue) found
      (by simp only [beq_self_eq_true, Bool.and_self]) fun g early => by
        have other := first g early
        simp only [Bool.and_eq_false_iff, beq_eq_false_iff_ne]
        tauto
    have known : f.copy.id ∈ o.idsOf f.sender f.queue := List.mem_map.mpr ⟨m, published, id⟩
    have kept : [f.copy].filter (fun qm => qm.id ∈ o.idsOf f.sender f.queue) = [f.copy] :=
      List.filter_eq_self.mpr fun qm last => by
        rw [List.mem_singleton.mp last]
        exact decide_eq_true known
    rw [if_pos rfl, ready_arrives accepts, if_pos rfl, List.filter_append, kept,
      List.append_assoc, ← before]
    unfold pending
    rw [next]
    rfl
  · rw [InFlight.filter_other found (by
      simp only [Bool.and_eq_false_iff, beq_eq_false_iff_ne]
      tauto)]
    refine Eq.trans ?_ before
    congr 1
    split
    · rename_i same
      subst same
      rw [ready_arrives accepts]
      split
      · -- another sender's message, under an id that this one has not given out
        rename_i same
        subst same
        have stranger : y ≠ f.sender := fun same => here ⟨same.symm, rfl, rfl⟩
        have unknown : f.copy.id ∉ o.idsOf y f.queue := by
          intro known
          obtain ⟨m', published', id'⟩ := List.mem_map.mp known
          refine mirrors.apart y y_member _ sender stranger _ m' published' ?_
          rw [id', ← id]
          exact mirrors.own _ _ m published
        have none : [f.copy].filter (fun qm => qm.id ∈ o.idsOf y f.queue) = [] :=
          List.filter_eq_nil_iff.mpr fun qm last => by
            rw [List.mem_singleton.mp last, decide_eq_true_eq]
            exact unknown
        rw [List.filter_append, none, List.append_nil]
      · rfl
    · rfl

end

theorem Mirrors.step {event : ReplicaEvent} (mirrors : o.Mirrors members)
    (faithful : o.Faithful env members event) : (o.step env members event).Mirrors members := by
  unfold BrokerCluster.step
  cases event with
  | publish x op publishes =>
    dsimp only
    split
    · rename_i x_member
      exact mirrors.published_run x_member (faithful x_member)
    · exact mirrors
  | deliver k =>
    dsimp only
    cases found : o.net[k]? with
    | none => exact mirrors
    | some f =>
      obtain ⟨accepts, first⟩ := faithful f found
      exact mirrors.delivered found accepts first

theorem mirrors_start (setup : UInt64 → NodeSetup) : (start env setup).Mirrors members where
  relayed x _ p _ _ queue := List.append_eq_nil_iff.mpr
    ⟨List.filter_eq_nil_iff.mpr fun qm _ => by
      rw [decide_eq_true_eq]
      exact List.not_mem_nil, rfl⟩
  bare _ _ _ := nofun
  own _ _ _ := nofun
  apart _ _ _ _ _ _ _ := nofun
  sent _ := nofun

theorem inQueueOrder_bare {ms : List Message} (bare : ∀ m ∈ ms, m.Bare) :
    inQueueOrder ms = ms.map QueueMessage.full := by
  have general (q : PriorityQueue) : (ms.foldl (fun q m => q.pushBack (.full m)) q).ready =
      q.ready ++ ms.map QueueMessage.full := by
    induction ms generalizing q with
    | nil => exact (List.append_nil _).symm
    | cons m ms ih =>
      obtain ⟨first, later⟩ := List.forall_mem_cons.mp bare
      refine (ih later _).trans ?_
      rw [PriorityQueue.ready_pushBack (m := .full m) first.priority, List.append_assoc]
      rfl
  exact general .new

theorem content_copy {m : Message} (bare : m.Bare) (wal : SegmentCoordinator) :
    m.copy.content? env wal = (QueueMessage.full m).content? env wal := by
  have properties := BasicProperties.eq_default_of_flags bare.properties
  change some _ = some m.content
  unfold Message.content
  rw [properties, bare.exchange, bare.routingKey, bare.priority]
  rfl

/-- Once nothing is on its way, a peer has the copies of all that was published. -/
theorem Mirrors.replicated (mirrors : o.Mirrors members) (arrived : o.net = []) {x p : UInt64}
    (x_member : x ∈ members) (p_member : p ∈ members) (distinct : x ≠ p) (queue : String) :
    Replicated env o x p queue := by
  refine ⟨?_, mirrors.apart x x_member p p_member distinct queue⟩
  have relayed := mirrors.relayed x x_member p p_member distinct queue
  unfold pending at relayed
  rw [arrived, List.filter_nil, List.map_nil, List.append_nil] at relayed
  rw [relayed, inQueueOrder_bare (mirrors.bare x queue), List.map_map, List.map_map]
  exact List.map_congr_left fun m member => content_copy (mirrors.bare x queue m member) _

/-- In a run of faithful publishes and deliveries, whenever nothing is on its way, each
    peer has each message that another node has published to a queue, once, with the same
    content, in the order of the queue, and under an id of which it is not the origin. -/
theorem replicas_exact (env : Env) (members : List UInt64) (setup : UInt64 → NodeSetup)
    (es : List ReplicaEvent)
    (along : Run.Along (BrokerCluster.step env members) (Faithful env members)
      (start env setup) es) :
    ∀ before rest, es = before ++ rest → (after env members setup before).net = [] →
      ∀ x ∈ members, ∀ p ∈ members, x ≠ p → ∀ queue,
        Replicated env (after env members setup before) x p queue := by
  intro before rest split arrived x x_member p p_member distinct queue
  rw [split, Run.along_append] at along
  have mirrors : (after env members setup before).Mirrors members :=
    Run.invariant (fun _ o => o.Mirrors members) (mirrors_start setup)
      (fun _ _ _ faithful mirrors => mirrors.step faithful) along.1
  exact mirrors.replicated arrived x_member p_member distinct queue

end BrokerCluster

open BrokerCluster

/-- A client of node 1 has a queue bound to the default exchange under a key, and node 2
    has the queue as well. -/
def pairOfNodes (key : String) (x : UInt64) : NodeSetup :=
  ⟨guestOnly, some ⟨x, 1, 0⟩,
    if x = 1 then session "q" ++ [.queueBind "q" "" key false]
    else [.clusterDeclareQueue "q" true false false "classic" 0]⟩

def publishThere (key : String) (body : Bytes) : ReplicaEvent :=
  .publish 1 (.basicPublish 1 1 ⟨"", key, false, .default, body⟩ 0) rfl

/-- Two messages with an empty routing key, the first one delivered before the second one
    is published. -/
def bareInTurn : List ReplicaEvent :=
  [publishThere "" [7], .deliver 0, publishThere "" [8], .deliver 0]

theorem replicas_exact_in_turn : Replicated (plainEnv 64 1)
    (after (plainEnv 64 1) [1, 2] (pairOfNodes "") bareInTurn) 1 2 "q" :=
  replicas_exact (plainEnv 64 1) [1, 2] (pairOfNodes "") bareInTurn (by decide +kernel)
    bareInTurn [] (List.append_nil _).symm (by decide +kernel) 1 (by decide) 2 (by decide)
    (by decide) "q"

def keyed : List ReplicaEvent := [publishThere "q" [7], .deliver 0]

/-- The peer's copy has lost the routing key. -/
theorem routing_key_lost : (after (plainEnv 64 1) [1, 2] (pairOfNodes "q") keyed).net = [] ∧
    ¬ Replicated (plainEnv 64 1) (after (plainEnv 64 1) [1, 2] (pairOfNodes "q") keyed)
      1 2 "q" := by
  refine ⟨by decide +kernel, fun replicated => ?_⟩
  have keys := congrArg (List.map (Option.map Content.routingKey)) replicated.copies
  exact absurd keys (by decide +kernel)

end RocketmqBroker
