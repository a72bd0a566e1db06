import RocketmqBroker.Broker.Footprint
import RocketmqBroker.Delivery.Requests
import RocketmqBroker.Durability.LogView

/-!
The predeclared exchanges and the implicit bindings of queues on the default exchange.
Declaring a queue binds it there, and so does recovery; a queue that comes through the
management interface is not bound, and a declaration gives up its binding when another
task holds the lock of the exchanges. On the other side the default exchange can be
deleted and its bindings can be removed like any other.
-/
namespace RocketmqBroker
open Run.Program

structure Exchange.Extends (ex' ex : Exchange) : Prop where
  kind : ex'.kind = ex.kind
  binds : ∀ queue routingKey, ex.binds queue routingKey = true →
    ex'.binds queue routingKey = true

def ExchangesGrow (exs exs' : FinMap String Exchange) : Prop :=
  ∀ name ex, exs.get? name = some ex → ∃ ex', exs'.get? name = some ex' ∧ ex'.Extends ex

namespace BrokerState

def bindsDefault (s : BrokerState) (queue : String) : Bool :=
  (s.exchanges.get? "").any (·.binds queue queue)

def Implicit (s : BrokerState) (exchange queue routingKey : String) : Prop :=
  exchange = "" ∧ routingKey = queue ∧ s.queues.contains queue = true

def declaredName (s : BrokerState) (args : QueueDeclareArgs) : String :=
  if args.name.isEmpty then "amq.gen-" ++ toString s.nextMsgId else args.name

def compiles (env : Env) (s : BrokerState) (args : QueueDeclareArgs) : Bool :=
  ((compileQueueSchema args.options :
    Act env (Except SchemaError (Option CompiledSchema))).result s).toOption.isSome

/-- A declaration that is not only a question, with a name that is not reserved, the
    permission and a schema that compiles. -/
def acceptsDeclare (env : Env) (s : BrokerState) (connId : UInt64) (args : QueueDeclareArgs) :
    Bool :=
  !args.passive &&
    (args.name.isEmpty || !("amq.".isPrefixOf args.name && !"amq.gen-".isPrefixOf args.name)) &&
    checkPermission env s connId (·.configure) (s.declaredName args) && s.compiles env args

def creates (env : Env) (s : BrokerState) : Op → Option String
  | .queueDeclare connId args _ =>
    if s.acceptsDeclare env connId args && !s.queues.contains (s.declaredName args) then
      some (s.declaredName args)
    else none
  | .clusterDeclareQueue name _ _ _ _ _ => if s.queues.contains name then none else some name
  | .createQueueVhost name _ _ => if s.queues.contains name then none else some name
  | _ => none

end BrokerState

/-- The predeclared exchanges are there with their kinds, and every queue is bound on the
    default exchange under its name. -/
structure Defaults (s : BrokerState) : Prop where
  predeclared : ∀ name ex, createDefaultExchanges.get? name = some ex →
    ∃ ex', s.exchanges.get? name = some ex' ∧ ex'.kind = ex.kind
  bound : ∀ queue, s.queues.contains queue = true → s.bindsDefault queue = true

/-- Moreover messages for the name of a queue reach it. -/
structure DefaultsHold (s : BrokerState) : Prop extends Defaults s where
  reached : ∀ queue, s.queues.contains queue = true →
    ∃ ex, s.exchanges.get? "" = some ex ∧ ∀ headers, queue ∈ ex.routeEach queue headers

/-- From one state to the next this queue is new, if any, and exchanges only grow. -/
structure Declares (s t : BrokerState) (new : Option String) : Prop where
  queues : ∀ queue, t.queues.contains queue = true ↔
    s.queues.contains queue = true ∨ new = some queue
  grow : ExchangesGrow s.exchanges t.exchanges

structure DeclaresBound (s t : BrokerState) (new : Option String) : Prop
    extends Declares s t new where
  binds : ∀ queue ex, new = some queue → s.exchanges.get? "" = some ex →
    t.bindsDefault queue = true

/-- A request, and whether another task holds the lock of the exchanges when a new queue
    is to be bound. -/
structure Attempt where
  op : Op
  locked : Bool

/-- `try_write` does not wait: without the lock a declaration leaves the exchanges as they
    are. -/
def attempted (env : Env) (s : BrokerState) (a : Attempt) : BrokerState :=
  match a.op with
  | .queueDeclare _ _ _ | .clusterDeclareQueue _ _ _ _ _ _ =>
    if a.locked then { served env s a.op with exchanges := s.exchanges } else served env s a.op
  | _ => served env s a.op

/-- The request leaves the predeclared exchanges and the bindings of queues alone, and a
    queue that it creates without a binding has one already. -/
def KeepsDefaults (env : Env) (s : BrokerState) (a : Attempt) : Prop :=
  match a.op with
  | .exchangeDelete name _ => name ≠ ""
  | .deleteExchangeVhost name => predeclared name = false
  | .exchangeUnbind destination source routingKey => ¬ s.Implicit source destination routingKey
  | .queueUnbind queue exchange routingKey => ¬ s.Implicit exchange queue routingKey
  | .deleteBindingEq source dest propertiesKey =>
    ¬ s.Implicit source dest (if propertiesKey = "~" then "" else propertiesKey)
  | .createQueueVhost _ _ _ =>
    ∀ name, s.creates env a.op = some name → s.bindsDefault name = true
  | .queueDeclare _ _ _ | .clusterDeclareQueue _ _ _ _ _ _ =>
    a.locked = true → ∀ name, s.creates env a.op = some name → s.bindsDefault name = true
  | _ => True

/-- An effect that creates no queue and takes no exchange or binding away. -/
def Effect.isSafe : Effect → Bool
  | .createQueue _ _ _ _ => false
  | .removeExchange _ => false
  | .unbind _ _ _ => false
  | .restart _ _ _ => false
  | _ => true

def Effect.isStill : Effect → Bool
  | .removeQueue _ => false
  | e => e.isSafe

def Op.isOrdinary : Op → Bool
  | exchangeDelete _ _ => false
  | deleteExchangeVhost _ => false
  | exchangeUnbind _ _ _ => false
  | queueUnbind _ _ _ => false
  | deleteBindingEq _ _ _ => false
  | createQueueVhost _ _ _ => false
  | queueDeclare _ _ _ => false
  | clusterDeclareQueue _ _ _ _ _ _ => false
  | restart _ _ _ => false
  | _ => true

/-! Exchanges that grow. -/

section
variable {exs exs' exs'' : FinMap String Exchange}

theorem Exchange.Extends.refl (ex : Exchange) : ex.Extends ex := ⟨rfl, fun _ _ old => old⟩

theorem extends_addBinding (ex : Exchange) (b : Binding) : (ex.addBinding b).Extends ex := by
  constructor
  · unfold Exchange.addBinding
    split <;> rfl
  · intro queue routingKey old
    rw [Exchange.addBinding_binds, old, Bool.true_or]

theorem extends_append (ex : Exchange) (bs : List Binding) :
    Exchange.Extends { ex with bindings := ex.bindings ++ bs } ex := by
  refine ⟨rfl, fun queue routingKey old => ?_⟩
  obtain ⟨b, member, same⟩ := Exchange.binds_iff.mp old
  exact Exchange.binds_iff.mpr ⟨b, List.mem_append_left _ member, same⟩

theorem ExchangesGrow.refl (exs : FinMap String Exchange) : ExchangesGrow exs exs :=
  fun _ ex found => ⟨ex, found, .refl ex⟩

theorem ExchangesGrow.trans (first : ExchangesGrow exs exs') (second : ExchangesGrow exs' exs'') :
    ExchangesGrow exs exs'' := by
  intro name ex found
  obtain ⟨ex', there, extends'⟩ := first name ex found
  obtain ⟨ex'', last, extends''⟩ := second name ex' there
  exact ⟨ex'', last, extends''.kind.trans extends'.kind, fun queue routingKey old =>
    extends''.binds queue routingKey (extends'.binds queue routingKey old)⟩

theorem grow_orInsert (name : String) (ex : Exchange) :
    ExchangesGrow exs (exs.orInsert name ex) := by
  intro other old found
  refine ⟨old, ?_, .refl old⟩
  rw [FinMap.get?_orInsert]
  split
  · rename_i same
    rw [← same, found]
    rfl
  · exact found

theorem grow_modify {name : String} {f : Exchange → Exchange} (extends_ : ∀ ex, (f ex).Extends ex) :
    ExchangesGrow exs (exs.modify name f) := by
  intro other old found
  rw [FinMap.get?_modify]
  split
  · rename_i same
    rw [← same, found]
    exact ⟨f old, rfl, extends_ old⟩
  · exact ⟨old, found, .refl old⟩

end

section
variable {env : Env} {s t u : BrokerState} {new : Option String} {e : Effect}

theorem Declares.refl (s : BrokerState) : Declares s s none :=
  ⟨fun _ => by simp, .refl _⟩

theorem Declares.trans (first : Declares s t none) (second : Declares t u new) :
    Declares s u new := by
  refine ⟨fun queue => ?_, first.grow.trans second.grow⟩
  rw [second.queues, first.queues]
  simp

theorem Declares.trans' (first : Declares s t new) (second : Declares t u none) :
    Declares s u new := by
  refine ⟨fun queue => ?_, first.grow.trans second.grow⟩
  rw [second.queues, first.queues]
  simp

theorem declares_of_contains (same : ∀ queue, t.queues.contains queue = s.queues.contains queue)
    (grow : ExchangesGrow s.exchanges t.exchanges) : Declares s t none :=
  ⟨fun queue => by simp [same queue], grow⟩

theorem safe_grow (safe : e.isSafe = true) :
    ExchangesGrow s.exchanges (exec env s e).exchanges := by
  rw [(exec_memory env s e).2.1]
  cases e with
  | books change =>
    rw [Effect.inMemory, change.exchanges]
    exact .refl _
  | createExchange name kind durable logs => exact grow_orInsert _ _
  | bind exchange b logs => exact grow_modify fun ex => extends_addBinding ex b
  | appendBinding exchange b => exact grow_modify fun ex => extends_append ex [b]
  | createQueue | removeExchange | unbind | restart => cases safe
  | _ => exact .refl _

theorem still_declares (still : e.isStill = true) : Declares s (exec env s e) none := by
  have safe : e.isSafe = true := by
    cases e with
    | removeQueue => cases still
    | _ => exact still
  refine declares_of_contains (fun queue => ?_) (safe_grow safe)
  rw [(exec_memory env s e).1]
  cases e with
  | books change => rw [Effect.inMemory, change.queues]
  | tuneAll change => exact FinMap.contains_mapVals _ _ _
  | createQueue | removeExchange | unbind | restart | removeQueue => cases still
  | alloc | createExchange | bind | appendBinding | compact => rfl
  | _ => exact FinMap.contains_modify _ _ _ _

theorem books_declares (s : BrokerState) (change : Bookkeeping) :
    Declares s (exec env s (.books change)) none := still_declares rfl

theorem bind_declares (s : BrokerState) (exchange : String) (b : Binding) (logs : Bool) :
    Declares s (exec env s (.bind exchange b logs)) none := still_declares rfl

theorem takes_declares {α : Type} {p : Act env α} (takes : Takes (fun e => e.isStill = true) p)
    (s : BrokerState) : Declares s (p.final s) none :=
  takes.keeps (P := fun t => Declares s t none)
    (fun _ _ still before => before.trans (still_declares still)) (.refl s)

theorem still_or_removes (safe : e.isSafe = true) :
    e.isStill = true ∨ ∃ name, e = .removeQueue name := by
  cases e with
  | removeQueue name => exact .inr ⟨name, rfl⟩
  | _ => exact .inl safe

theorem safe_contains (safe : e.isSafe = true) {queue : String}
    (there : (exec env s e).queues.contains queue = true) : s.queues.contains queue = true := by
  rcases still_or_removes safe with still | ⟨name, rfl⟩
  · rw [(still_declares still).queues] at there
    simpa using there
  · rw [(exec_memory env s _).1] at there
    exact (FinMap.contains_erase.mp there).2

theorem Defaults.default (defaults : Defaults s) :
    ∃ ex, s.exchanges.get? "" = some ex ∧ ex.kind = .direct :=
  defaults.predeclared "" (.new "" .direct true) (by decide)

theorem defaultsHold_iff : DefaultsHold s ↔ Defaults s := by
  constructor
  · intro holds
    exact holds.toDefaults
  · intro defaults
    refine ⟨defaults, fun queue there => ?_⟩
    obtain ⟨ex, found, direct⟩ := defaults.default
    refine ⟨ex, found, fun headers => ?_⟩
    have binds := defaults.bound queue there
    rw [BrokerState.bindsDefault, found, Option.any_some] at binds
    obtain ⟨b, member, same, key⟩ := Exchange.binds_iff.mp binds
    unfold Exchange.routeEach
    rw [direct]
    refine List.mem_map.mpr ⟨b, List.mem_filter.mpr ⟨member, ?_⟩, same⟩
    exact beq_iff_eq.mpr key

theorem bindsDefault_grow (grow : ExchangesGrow s.exchanges t.exchanges) {queue : String}
    (binds : s.bindsDefault queue = true) : t.bindsDefault queue = true := by
  obtain ⟨ex, found, binds⟩ := (Option.any_eq_true _ _).mp binds
  obtain ⟨ex', there, extends_⟩ := grow "" ex found
  exact (Option.any_eq_true _ _).mpr ⟨ex', there, extends_.binds queue queue binds⟩

theorem defaults_grow (defaults : Defaults s)
    (grow : ExchangesGrow s.exchanges t.exchanges)
    (fewer : ∀ queue, t.queues.contains queue = true → s.queues.contains queue = true) :
    Defaults t := by
  constructor
  · intro name ex default
    obtain ⟨old, found, kind⟩ := defaults.predeclared name ex default
    obtain ⟨ex', there, extends_⟩ := grow name old found
    exact ⟨ex', there, extends_.kind.trans kind⟩
  · intro queue there
    exact bindsDefault_grow grow (defaults.bound queue (fewer queue there))

theorem defaults_declares (declares : Declares s t new) (defaults : Defaults s)
    (binds : ∀ queue, new = some queue → t.bindsDefault queue = true) : Defaults t := by
  refine ⟨fun name ex default => ?_, fun queue there => ?_⟩
  · obtain ⟨old, found, kind⟩ := defaults.predeclared name ex default
    obtain ⟨ex', there, extends_⟩ := declares.grow name old found
    exact ⟨ex', there, extends_.kind.trans kind⟩
  · rcases (declares.queues queue).mp there with old | here
    · exact bindsDefault_grow declares.grow (defaults.bound queue old)
    · exact binds queue here

theorem defaults_unbound (queues : ∀ queue, t.queues.contains queue = true ↔
      s.queues.contains queue = true ∨ new = some queue) (same : t.exchanges = s.exchanges)
    (defaults : Defaults s) :
    Defaults t ↔ ∀ queue, new = some queue → s.bindsDefault queue = true := by
  have binds (queue : String) : t.bindsDefault queue = s.bindsDefault queue := by
    unfold BrokerState.bindsDefault
    rw [same]
  constructor
  · intro after queue here
    rw [← binds]
    exact after.bound queue ((queues queue).mpr (.inr here))
  · intro bound
    refine defaults_declares ⟨queues, same ▸ .refl _⟩ defaults fun queue here => ?_
    rw [binds]
    exact bound queue here

/-! Requests that take something away. -/

theorem safe_of_performs {op : Op} (ordinary : op.isOrdinary = true)
    (may : op.performs e = true) : e.isSafe = true := by
  cases e with
  | createQueue | removeExchange | unbind | restart =>
    cases op <;>
      first | exact absurd may Bool.false_ne_true | exact absurd ordinary Bool.false_ne_true
  | _ => rfl

theorem defaults_ordinary {op : Op} (ordinary : op.isOrdinary = true) (defaults : Defaults s) :
    Defaults (served env s op) :=
  (takes_handle op).keeps (fun _ _ may before =>
    defaults_grow before (safe_grow (safe_of_performs ordinary may)) fun _ =>
      safe_contains (safe_of_performs ordinary may)) defaults

theorem predeclared_name {name : String} (known : predeclared name = true) :
    name = "" ∨ "amq.".isPrefixOf name = true := by
  unfold predeclared createDefaultExchanges FinMap.contains at known
  rw [FinMap.get?_insert, FinMap.get?_insert, FinMap.get?_insert, FinMap.get?_insert,
    FinMap.get?_insert] at known
  by_cases headers : name = "amq.headers"
  · exact .inr (headers ▸ by decide +kernel)
  by_cases topic : name = "amq.topic"
  · exact .inr (topic ▸ by decide +kernel)
  by_cases fanout : name = "amq.fanout"
  · exact .inr (fanout ▸ by decide +kernel)
  by_cases direct : name = "amq.direct"
  · exact .inr (direct ▸ by decide +kernel)
  by_cases default : name = ""
  · exact .inl default
  · rw [if_neg headers, if_neg topic, if_neg fanout, if_neg direct, if_neg default] at known
    cases known

theorem defaults_removeExchange (defaults : Defaults s) (name : String) :
    Defaults (exec env s (.removeExchange name)) ↔ predeclared name = false := by
  have after (other : String) : (exec env s (.removeExchange name)).exchanges.get? other =
      if other = name then none else s.exchanges.get? other := by
    rw [(exec_memory env s _).2.1]
    exact FinMap.get?_erase _ _ _
  constructor
  · intro holds
    by_contra known
    obtain ⟨ex, found⟩ := Option.isSome_iff_exists.mp (Bool.not_eq_false _ ▸ known)
    obtain ⟨ex', there, -⟩ := holds.predeclared name ex found
    rw [after, if_pos rfl] at there
    cases there
  · intro unknown
    have other {n : String} (known : predeclared n = true) : n ≠ name := by
      rintro rfl
      rw [unknown] at known
      cases known
    refine ⟨fun n ex found => ?_, fun queue there => ?_⟩
    · rw [after, if_neg (other (Option.isSome_iff_exists.mpr ⟨ex, found⟩))]
      exact defaults.predeclared n ex found
    · unfold BrokerState.bindsDefault
      rw [after, if_neg (other (by decide))]
      rw [(exec_memory env s _).1] at there
      exact defaults.bound queue there

theorem binds_removeBinding (ex : Exchange) (queue routingKey q k : String) :
    (ex.removeBinding queue routingKey).binds q k = true ↔
      ex.binds q k = true ∧ ¬ (q = queue ∧ k = routingKey) := by
  rw [Exchange.binds_iff, Exchange.binds_iff]
  constructor
  · rintro ⟨b, member, rfl, rfl⟩
    obtain ⟨inside, kept⟩ := List.mem_filter.mp member
    refine ⟨⟨b, inside, rfl, rfl⟩, ?_⟩
    rw [not_and_or]
    simpa using kept
  · rintro ⟨⟨b, member, rfl, rfl⟩, apart⟩
    refine ⟨b, List.mem_filter.mpr ⟨member, ?_⟩, rfl, rfl⟩
    rw [not_and_or] at apart
    simpa using apart

theorem defaults_unbind (defaults : Defaults s) (exchange queue routingKey : String) :
    Defaults (exec env s (.unbind exchange queue routingKey)) ↔
      ¬ s.Implicit exchange queue routingKey := by
  have after (name : String) :
      (exec env s (.unbind exchange queue routingKey)).exchanges.get? name =
      if name = exchange then (s.exchanges.get? name).map (·.removeBinding queue routingKey)
      else s.exchanges.get? name := by
    rw [(exec_memory env s _).2.1]
    exact get?_modifyExchange s exchange name _
  have same : (exec env s (.unbind exchange queue routingKey)).queues = s.queues :=
    (exec_memory env s _).1
  obtain ⟨ex, found, -⟩ := defaults.default
  constructor
  · rintro holds ⟨rfl, rfl, there⟩
    have binds := holds.bound routingKey (same ▸ there)
    rw [BrokerState.bindsDefault, after, if_pos rfl, found] at binds
    exact ((binds_removeBinding ex _ _ _ _).mp binds).2 ⟨rfl, rfl⟩
  · intro explicit
    refine ⟨fun name ex' default => ?_, fun name there => ?_⟩
    · obtain ⟨old, known, kind⟩ := defaults.predeclared name ex' default
      rw [after, known]
      split
      · exact ⟨_, rfl, kind⟩
      · exact ⟨old, rfl, kind⟩
    · rw [same] at there
      have binds := defaults.bound name there
      rw [BrokerState.bindsDefault, found] at binds
      rw [BrokerState.bindsDefault, after, found]
      split
      · rename_i here
        refine (binds_removeBinding ex _ _ _ _).mpr ⟨binds, ?_⟩
        rintro ⟨rfl, rfl⟩
        exact explicit ⟨here.symm, rfl, there⟩
      · exact binds

/-! Declarations. -/

theorem contains_createQueue (name : String) (q : NewQueue) (logs : Bool)
    (schema : Option CompiledSchema) (queue : String) :
    (exec env s (.createQueue name q logs schema)).queues.contains queue = true ↔
      s.queues.contains queue = true ∨ queue = name := by
  rw [(exec_memory env s _).1, createQueue_queues]
  exact FinMap.contains_orInsert

theorem get?_createQueue {name : String} {q : NewQueue} {logs : Bool}
    {schema : Option CompiledSchema} (absent : s.queues.contains name = false) :
    (exec env s (.createQueue name q logs schema)).queues.get? name = some q.state := by
  have missing : s.queues.get? name = none :=
    Option.isNone_iff_eq_none.mp (Option.isSome_eq_false_iff.mp absent)
  rw [(exec_memory env s _).1, createQueue_queues, FinMap.get?_orInsert, if_pos rfl, missing]
  rfl

theorem createQueue_declares (name : String) (q : NewQueue) (logs : Bool)
    (schema : Option CompiledSchema) :
    Declares s (exec env s (.createQueue name q logs schema)) (some name) := by
  refine ⟨fun queue => ?_, ?_⟩
  · rw [contains_createQueue, Option.some_inj, eq_comm (a := queue)]
  · rw [(exec_memory env s _).2.1]
    cases logs with
    | false => exact .refl _
    | true => exact grow_modify fun ex => extends_addBinding ex _

theorem autoBind_binds (queue : String) {ex : Exchange} (found : s.exchanges.get? "" = some ex) :
    (s.autoBindDefaultExchange queue).bindsDefault queue = true := by
  have after : (s.autoBindDefaultExchange queue).exchanges.get? "" =
      some (ex.addBinding ⟨queue, queue, none⟩) := by
    rw [BrokerState.autoBindDefaultExchange, get?_modifyExchange, if_pos rfl, found]
    rfl
  rw [BrokerState.bindsDefault, after, Option.any_some, Exchange.addBinding_binds, beq_self_eq_true,
    Bool.and_self, Bool.or_true]

theorem bind_binds (env : Env) (queue : String) {ex : Exchange}
    (found : s.exchanges.get? "" = some ex) :
    (exec env s (.bind "" ⟨queue, queue, none⟩ false)).bindsDefault queue = true := by
  rw [BrokerState.bindsDefault, (exec_memory env s _).2.1]
  exact autoBind_binds queue found

theorem declareSchema_new {name : String} {q : QueueState} (found : s.queues.get? name = some q)
    (bare : q.schema = none) (arguments : FieldTable) (compiled : Option CompiledSchema) :
    (declareSchema name arguments compiled : Act env (Option String)).result s = none := by
  unfold declareSchema
  split
  · rfl
  · cases compiled with
    | none => rfl
    | some schema =>
      dsimp only
      rw [result_bind]
      have fits : (look fun s : BrokerState =>
          if arguments.containsKey "x-schema-override" then none
          else do
            let q ← s.queues.get? name
            let old ← q.schema
            env.checkSchemaConflict old schema : Act env (Option String)).result s = none := by
        change (if _ then _ else _) = _
        split
        · rfl
        · change ((s.queues.get? name).bind fun q => q.schema.bind _) = _
          rw [found, Option.bind_some, bare]
          rfl
      rw [fits]
      rfl

theorem declareSchema_still (name : String) (arguments : FieldTable)
    (compiled : Option CompiledSchema) :
    Takes (fun e => e.isStill = true)
      (declareSchema name arguments compiled : Act env (Option String)) := by
  unfold declareSchema
  split
  · exact Takes.bind (takes_perform rfl) fun _ => takes_pure _
  · split
    · exact takes_pure _
    · refine (takes_read _).bind fun conflict => ?_
      split
      · exact takes_pure _
      · exact Takes.bind (takes_perform rfl) fun _ => takes_pure _

theorem sendDeclareOk_still (name : String) (noWait : Bool) :
    Takes (fun e => e.isStill = true) (sendDeclareOk name noWait : Act env (List Frame)) := by
  unfold sendDeclareOk
  split
  · exact takes_pure _
  · exact takes_read _

def finishDeclare (name : String) (args : QueueDeclareArgs) (compiled : Option CompiledSchema) :
    Act env (List Frame) := do
  match ← declareSchema name args.arguments compiled with
  | some text => sendChannelError preconditionFailed text classQueue methodQueueDeclare
  | none =>
    perform (.bind "" ⟨name, name, none⟩ false)
    sendDeclareOk name args.noWait

variable {args : QueueDeclareArgs} {now : Instant} {name : String} {connId : UInt64}

theorem finishDeclare_still (compiled : Option CompiledSchema) :
    Takes (fun e => e.isStill = true)
      (finishDeclare name args compiled : Act env (List Frame)) := by
  refine (declareSchema_still _ _ _).bind fun failed => ?_
  cases failed with
  | some text => exact takes_pure _
  | none => exact Takes.bind (takes_perform rfl) fun _ => sendDeclareOk_still _ _

theorem finishDeclare_binds {q : QueueState} (found : s.queues.get? name = some q)
    (bare : q.schema = none) {ex : Exchange} (default : s.exchanges.get? "" = some ex)
    (compiled : Option CompiledSchema) :
    ((finishDeclare name args compiled : Act env (List Frame)).final s).bindsDefault name =
      true := by
  unfold finishDeclare
  rw [final_bind, declareSchema_new found bare]
  obtain ⟨ex', there, -⟩ := (takes_declares
    (declareSchema_still name args.arguments compiled : Takes _ (_ : Act env _)) s).grow
      "" ex default
  generalize (declareSchema name args.arguments compiled : Act env _).final s = t at there
  dsimp only
  rw [final_bind]
  exact bindsDefault_grow (takes_declares (sendDeclareOk_still name args.noWait) _).grow
    (bind_binds env name there)

theorem Declares.nothing (declares : Declares s t none) : DeclaresBound s t none :=
  ⟨declares, fun _ _ new => by cases new⟩

theorem DeclaresBound.after (first : Declares s t none) (second : DeclaresBound t u new) :
    DeclaresBound s u new := by
  refine ⟨first.trans second.toDeclares, fun queue ex here default => ?_⟩
  obtain ⟨ex', there, -⟩ := first.grow "" ex default
  exact second.binds queue ex' here there

theorem finishDeclare_new (declares : Declares s t (some name)) {q : QueueState}
    (found : t.queues.get? name = some q) (bare : q.schema = none)
    (compiled : Option CompiledSchema) :
    DeclaresBound s ((finishDeclare name args compiled : Act env (List Frame)).final t)
      (some name) := by
  refine ⟨declares.trans' (takes_declares (finishDeclare_still compiled) t), ?_⟩
  intro queue ex here default
  obtain rfl := Option.some.inj here
  obtain ⟨ex', there, -⟩ := declares.grow "" ex default
  exact finishDeclare_binds found bare there compiled

theorem declareActive_declares (env : Env) (s : BrokerState) (connId : UInt64) (name : String)
    (args : QueueDeclareArgs) (now : Instant) :
    DeclaresBound s ((declareActive connId name args now : Act env (List Frame)).final s)
      (if s.compiles env args && !s.queues.contains name then some name else none) := by
  have compiling : Takes (fun e => e.isStill = true)
      (compileQueueSchema args.options : Act env (Except SchemaError (Option CompiledSchema))) :=
    @takes_compileQueueSchema _ _ none (fun _ _ => rfl) _
  have compiled := takes_declares compiling s
  have seen : (look fun s => s.queues.get? name : Act env _).result s = s.queues.get? name := rfl
  have still : (look fun s => s.queues.get? name : Act env _).final s = s := rfl
  unfold declareActive BrokerState.compiles
  rw [final_bind, seen, still]
  cases found : s.queues.get? name with
  | some q =>
    have known : s.queues.contains name = true := Option.isSome_iff_exists.mpr ⟨q, found⟩
    rw [known, Bool.not_true, Bool.and_false, if_neg Bool.false_ne_true]
    dsimp only
    split
    · exact (Declares.refl s).nothing
    · rw [final_bind]
      cases (compileQueueSchema args.options : Act env _).result s with
      | error err => exact compiled.nothing
      | ok schema =>
        exact (compiled.trans (takes_declares (finishDeclare_still schema) _)).nothing
  | none =>
    have missing : s.queues.contains name = false := by
      unfold FinMap.contains
      rw [found]
      rfl
    rw [missing, Bool.not_false, Bool.and_true]
    dsimp only
    rw [Option.any_none, if_neg Bool.false_ne_true, final_bind]
    cases (compileQueueSchema args.options : Act env _).result s with
    | error err => exact compiled.nothing
    | ok schema =>
      refine DeclaresBound.after compiled ?_
      have absent : ((compileQueueSchema args.options : Act env _).final s).queues.contains name =
          false := by
        rw [← Bool.not_eq_true, compiled.queues, missing]
        simp
      generalize (compileQueueSchema args.options : Act env _).final s = t at absent
      dsimp only
      rw [Option.isNone_none, if_pos rfl, final_bind]
      have created (owner : Option UInt64) : Declares t (exec env t (.createQueue name
          (.declared name args.options owner now) args.durable schema)) (some name) :=
        createQueue_declares name _ args.durable schema
      have new (owner : Option UInt64) : (exec env t (.createQueue name
          (.declared name args.options owner now) args.durable schema)).queues.get? name =
            some (NewQueue.declared name args.options owner now).state := get?_createQueue absent
      have bare (owner : Option UInt64) :
          (NewQueue.declared name args.options owner now).state.schema = none := rfl
      split
      · rw [final_bind]
        refine finishDeclare_new ((created (some connId)).trans' (books_declares _ _)) ?_
          (bare (some connId)) schema
        rw [(exec_memory env _ _).1]
        exact new (some connId)
      · exact finishDeclare_new (created _) (new _) (bare _) schema

theorem compileQueueSchema_congr (env : Env) (same : t.nextSchemaId = s.nextSchemaId)
    (opts : QueueOptions) :
    (compileQueueSchema opts : Act env (Except SchemaError (Option CompiledSchema))).result t =
      (compileQueueSchema opts : Act env (Except SchemaError (Option CompiledSchema))).result s := by
  unfold compileQueueSchema
  split
  · rfl
  · dsimp only
    split
    · rfl
    · split
      · rfl
      · rename_i raw _ _ _ messageName _
        have seen (u : BrokerState) :
            (look fun s => compileProto env.proto s.nextSchemaId raw messageName :
              Act env _).result u = compileProto env.proto u.nextSchemaId raw messageName := rfl
        rw [result_bind, result_bind, seen, same, result_bind, result_bind, seen]
        cases (compileProto env.proto s.nextSchemaId raw messageName).2 <;> rfl

theorem compiles_congr (env : Env) (same : t.nextSchemaId = s.nextSchemaId)
    (args : QueueDeclareArgs) : t.compiles env args = s.compiles env args := by
  unfold BrokerState.compiles
  rw [compileQueueSchema_congr env same]

theorem declareNamed_declares (env : Env) (s : BrokerState) (connId : UInt64)
    (args : QueueDeclareArgs) (now : Instant) (name : String) :
    DeclaresBound s
      ((queueDeclare.declareNamed connId args now name : Act env (List Frame)).final s)
      (if !args.passive && checkPermission env s connId (·.configure) name &&
        s.compiles env args && !s.queues.contains name then some name else none) := by
  unfold queueDeclare.declareNamed
  cases args.passive with
  | true =>
    rw [if_pos rfl, final_bind]
    change DeclaresBound s (final (if s.queues.contains name then _ else _) s) none
    split
    · exact (takes_declares (sendDeclareOk_still name args.noWait) s).nothing
    · exact (Declares.refl s).nothing
  | false =>
    rw [if_neg Bool.false_ne_true, final_bind]
    change DeclaresBound s (final (if !checkPermission env s connId (·.configure) name then _
      else _) s) _
    cases checkPermission env s connId (·.configure) name with
    | false => exact (Declares.refl s).nothing
    | true => exact declareActive_declares env s connId name args now

theorem queueDeclare_declares (env : Env) (s : BrokerState) (connId : UInt64)
    (args : QueueDeclareArgs) (now : Instant) :
    DeclaresBound s (served env s (.queueDeclare connId args now))
      (s.creates env (.queueDeclare connId args now)) := by
  change DeclaresBound s ((queueDeclare connId args now : Act env (List Frame)).final s)
    (if s.acceptsDeclare env connId args && !s.queues.contains (s.declaredName args) then
      some (s.declaredName args) else none)
  unfold queueDeclare BrokerState.acceptsDeclare
  cases empty : args.name.isEmpty with
  | true =>
    have name : s.declaredName args = "amq.gen-" ++ toString s.nextMsgId := if_pos empty
    rw [if_pos rfl, name, Bool.true_or, Bool.and_true, final_bind, final_bind]
    refine DeclaresBound.after (still_declares rfl : Declares s (exec env s .alloc) none) ?_
    have named := declareNamed_declares env (exec env s .alloc) connId args now
      ("amq.gen-" ++ toString s.nextMsgId)
    rw [compiles_congr (s := s) (t := exec env s .alloc) env rfl] at named
    exact named
  | false =>
    have name : s.declaredName args = args.name := if_neg (empty ▸ Bool.false_ne_true)
    have named := declareNamed_declares env s connId args now args.name
    rw [if_neg Bool.false_ne_true, name, Bool.false_or]
    cases passive : args.passive with
    | true =>
      rw [passive] at named
      exact named
    | false =>
      rw [passive] at named
      rw [Bool.not_false, Bool.true_and, Bool.true_and]
      cases "amq.".isPrefixOf args.name && !"amq.gen-".isPrefixOf args.name with
      | true => exact (Declares.refl s).nothing
      | false => exact named

theorem clusterDeclareQueue_declares (env : Env) (s : BrokerState) (name : String)
    (durable exclusive autoDelete : Bool) (queueType : String) (now : Instant) :
    let op : Op := .clusterDeclareQueue name durable exclusive autoDelete queueType now
    DeclaresBound s (served env s op) (s.creates env op) := by
  intro op
  change DeclaresBound s ((clusterDeclareQueue name durable exclusive autoDelete queueType now :
    Act env (List Frame)).final s) (if s.queues.contains name then none else some name)
  unfold clusterDeclareQueue
  rw [final_bind]
  change DeclaresBound s (final (if !s.queues.contains name then _ else _) s) _
  cases s.queues.contains name with
  | true => exact (Declares.refl s).nothing
  | false =>
    rw [Bool.not_false, if_pos rfl, if_neg Bool.false_ne_true, final_bind, final_bind]
    change DeclaresBound s (exec env (exec env s (.createQueue name _ false none))
      (.bind "" ⟨name, name, none⟩ false)) (some name)
    refine ⟨(createQueue_declares _ _ _ _).trans' (bind_declares _ _ _ _), ?_⟩
    intro queue ex here default
    obtain rfl := Option.some.inj here
    exact bind_binds env name default

theorem createQueueVhost_queues (env : Env) (s : BrokerState) (name : String)
    (req : CreateQueueRequest) (now : Instant) (queue : String) :
    (served env s (.createQueueVhost name req now)).queues.contains queue = true ↔
      s.queues.contains queue = true ∨ s.creates env (.createQueueVhost name req now) =
        some queue := by
  refine (@contains_createQueue env _ name _ false none queue).trans ?_
  change _ ↔ _ ∨ (if s.queues.contains name then none else some name) = some queue
  cases known : s.queues.contains name with
  | true =>
    rw [if_pos rfl]
    constructor
    · rintro (old | rfl)
      · exact .inl old
      · exact .inl known
    · rintro (old | new)
      · exact .inl old
      · cases new
  | false => rw [if_neg Bool.false_ne_true, Option.some_inj, eq_comm (a := queue)]

theorem DeclaresBound.defaults (declares : DeclaresBound s t new) (defaults : Defaults s) :
    Defaults t := by
  obtain ⟨ex, found, -⟩ := defaults.default
  exact defaults_declares declares.toDeclares defaults fun queue here =>
    declares.binds queue ex here found

/-! Recovery. -/

theorem apply_declares (env : Env) (now : Instant) (acked : List UInt64) (s : BrokerState)
    (r : LogRecord) : ∃ new, DeclaresBound s (r.apply env now acked s) new := by
  have modified (queue : String) (f : QueueState → QueueState) :
      DeclaresBound s (s.modifyQueue queue f) none :=
    (declares_of_contains (t := s.modifyQueue queue f)
      (fun _ => FinMap.contains_modify _ _ _ _) (.refl s.exchanges)).nothing
  have grown {exs : FinMap String Exchange} (grow : ExchangesGrow s.exchanges exs) :
      DeclaresBound s { s with exchanges := exs } none :=
    (declares_of_contains (s := s) (t := { s with exchanges := exs }) (fun _ => rfl) grow).nothing
  have nothing : DeclaresBound s s none := (Declares.refl s).nothing
  cases r with
  | declareQueue queue durable =>
    cases durable with
    | false => exact ⟨none, nothing⟩
    | true =>
      refine ⟨some queue, ⟨fun name => ?_, grow_modify fun ex => extends_addBinding ex _⟩, ?_⟩
      · refine FinMap.contains_orInsert.trans ?_
        rw [Option.some_inj, eq_comm (a := queue)]
      · intro name ex here found
        obtain rfl := Option.some.inj here
        exact autoBind_binds queue found
  | enqueue queue msgId exchange routingKey headers body =>
    simp only [LogRecord.apply]
    split
    · exact ⟨none, nothing⟩
    · exact ⟨none, modified queue _⟩
  | declareExchange name kindByte durable =>
    simp only [LogRecord.apply]
    split
    · split
      · exact ⟨none, grown (grow_orInsert _ _)⟩
      · exact ⟨none, nothing⟩
    · exact ⟨none, nothing⟩
  | bind exchange queue routingKey =>
    exact ⟨none, grown (grow_modify fun ex => extends_addBinding ex _)⟩
  | setQueueSchema schemaId queue rawProto descriptorSetBytes messageName =>
    simp only [LogRecord.apply]
    split
    · exact ⟨none, modified queue _⟩
    · exact ⟨none, nothing⟩
  | ack | raft => exact ⟨none, nothing⟩

theorem defaults_new (wal : SegmentCoordinator) (auth : AuthBackend)
    (cluster : Option ClusterCoordinator) : Defaults (.new wal auth cluster) :=
  ⟨fun _ ex found => ⟨ex, found, rfl⟩, fun _ there => by cases there⟩

theorem defaults_restart (env : Env) (s : BrokerState) (now : Instant) (auth : AuthBackend)
    (cluster : Option ClusterCoordinator) : Defaults (restart env now s.wal.dir auth cluster) := by
  rw [restart_replays, replayRecords]
  have fresh := defaults_new (SegmentCoordinator.new s.wal.dir env.maxSegmentSize) auth cluster
  generalize ackedOf (recordsFound env s) = acked
  generalize BrokerState.new (SegmentCoordinator.new s.wal.dir env.maxSegmentSize) auth cluster = t
    at fresh
  generalize recordsFound env s = rs
  induction rs generalizing t with
  | nil => exact fresh
  | cons r rs ih =>
    obtain ⟨new, declares⟩ := apply_declares env now acked t r
    exact ih (r.apply env now acked t) (declares.defaults fresh)

/-! Whole runs. -/

theorem defaults_step (a : Attempt) (defaults : Defaults s) :
    Defaults (attempted env s a) ↔ KeepsDefaults env s a := by
  obtain ⟨op, locked⟩ := a
  have declared {op : Op} (bound : DeclaresBound s (served env s op) (s.creates env op)) :
      Defaults (if locked then { served env s op with exchanges := s.exchanges }
          else served env s op) ↔
        (locked = true → ∀ name, s.creates env op = some name → s.bindsDefault name = true) := by
    cases locked with
    | false => exact iff_of_true (bound.defaults defaults) fun h => by cases h
    | true =>
      rw [if_pos rfl, imp_iff_right rfl]
      exact defaults_unbound bound.queues rfl defaults
  cases op with
  | exchangeDelete name noWait =>
    change Defaults ((exchangeDelete name noWait : Act env (List Frame)).final s) ↔ name ≠ ""
    unfold exchangeDelete
    split
    · rename_i reserved
      refine iff_of_true defaults ?_
      rintro rfl
      exact absurd reserved (by decide +kernel)
    · rename_i free
      refine (defaults_removeExchange defaults name).trans ?_
      constructor
      · rintro unknown rfl
        exact absurd unknown (by decide)
      · intro named
        by_contra known
        rcases predeclared_name (Bool.not_eq_false _ ▸ known) with unnamed | reserved
        · exact named unnamed
        · exact free reserved
  | deleteExchangeVhost name => exact defaults_removeExchange defaults name
  | exchangeUnbind destination source routingKey => exact defaults_unbind defaults _ _ _
  | deleteBindingEq source dest propertiesKey => exact defaults_unbind defaults _ _ _
  | queueUnbind queue exchange routingKey =>
    change Defaults ((queueUnbind queue exchange routingKey : Act env (List Frame)).final s) ↔
      ¬ s.Implicit exchange queue routingKey
    unfold queueUnbind
    rw [final_bind]
    change Defaults (final (if !s.queues.contains queue then _ else _) s) ↔ _
    split
    · rename_i missing
      refine iff_of_true defaults fun implicit => ?_
      rw [implicit.2.2] at missing
      cases missing
    · rw [final_bind]
      change Defaults (final (if !s.exchanges.contains exchange then _ else _) s) ↔ _
      split
      · rename_i missing
        refine iff_of_true defaults fun implicit => ?_
        obtain ⟨ex, found, -⟩ := defaults.default
        rw [implicit.1, FinMap.contains, found] at missing
        cases missing
      · exact defaults_unbind defaults _ _ _
  | createQueueVhost name req now =>
    have same : (served env s (.createQueueVhost name req now)).exchanges = s.exchanges := rfl
    exact defaults_unbound (createQueueVhost_queues env s name req now) same defaults
  | queueDeclare connId args now => exact declared (queueDeclare_declares env s connId args now)
  | clusterDeclareQueue name durable exclusive autoDelete queueType now =>
    exact declared (clusterDeclareQueue_declares env s name durable exclusive autoDelete queueType
      now)
  | restart now auth cluster => exact iff_of_true (defaults_restart env s now auth cluster) trivial
  | _ => exact iff_of_true (defaults_ordinary rfl defaults) trivial

end

/-- The defaults hold in all states of exactly the runs that leave the predeclared exchanges
    and the implicit bindings alone and create no queue without its binding. -/
theorem defaults_hold_iff (env : Env) (auth : AuthBackend) (cluster : Option ClusterCoordinator)
    (attempts : List Attempt) :
    (∀ before after, attempts = before ++ after →
      DefaultsHold (Run.run (attempted env) (install env auth cluster) before)) ↔
      Run.Along (attempted env) (KeepsDefaults env) (install env auth cluster) attempts := by
  refine Run.throughout_iff_along (fun _ => True)
    (defaultsHold_iff.mpr (defaults_new _ auth cluster)) trivial
    (fun _ _ _ _ => trivial) fun s a _ _ holds => ?_
  exact defaultsHold_iff.trans (defaults_step a (defaultsHold_iff.mp holds))

/-- The default exchange has no protected name and can be deleted. -/
theorem default_exchange_deleted : ¬ ∀ attempts : List Attempt,
    DefaultsHold (Run.run (attempted (plainEnv 64 1)) (install (plainEnv 64 1) guestOnly none)
      attempts) := by
  intro law
  let attempts : List Attempt := [⟨.exchangeDelete "" false, false⟩]
  obtain ⟨ex, found, -⟩ := (law attempts).predeclared "" (.new "" .direct true) (by decide)
  have gone : (Run.run (attempted (plainEnv 64 1)) (install (plainEnv 64 1) guestOnly none)
      attempts).exchanges.get? "" = none := by decide +kernel
  rw [gone] at found
  cases found

end RocketmqBroker
