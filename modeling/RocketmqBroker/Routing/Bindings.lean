import RocketmqBroker.Broker.Footprint
import RocketmqBroker.Delivery.Requests
import RocketmqBroker.Durability.Objects

/-!
The bindings of an exchange by their queue: which of them send a message, and how many there can
be. Adding a binding looks for the same queue and key first; the management API does not.
-/
namespace RocketmqBroker
open Run

namespace Exchange

def sends (ex : Exchange) (routingKey : String) (headers : List (String × String)) (b : Binding) :
    Bool :=
  match ex.kind with
  | .direct => b.routingKey == routingKey
  | .fanout => true
  | .topic => topicMatches b.routingKey routingKey
  | .headers => headersMatched headers b.headersMatch

/-- The bindings of one queue that a message comes through. -/
def ways (ex : Exchange) (routingKey : String) (headers : List (String × String)) (name : String) :
    List Binding :=
  ex.bindings.filter fun b => b.queueName == name && ex.sends routingKey headers b

def Distinct (ex : Exchange) : Prop :=
  ex.bindings.Pairwise fun b b' => ¬ (b.queueName = b'.queueName ∧ b.routingKey = b'.routingKey)

variable {ex : Exchange} {routingKey : String} {headers : List (String × String)} {name : String}

theorem mem_routeEach : name ∈ ex.routeEach routingKey headers ↔
    ∃ b ∈ ex.bindings, ex.sends routingKey headers b = true ∧ b.queueName = name := by
  change name ∈ (ex.bindings.filter (ex.sends routingKey headers)).map Binding.queueName ↔ _
  simp only [List.mem_map, List.mem_filter, and_assoc]

theorem count_routeEach :
    (ex.routeEach routingKey headers).count name = (ex.ways routingKey headers name).length := by
  change ((ex.bindings.filter (ex.sends routingKey headers)).map Binding.queueName).count name = _
  rw [List.count, List.countP_map, List.countP_filter, List.countP_eq_length_filter]
  rfl

theorem mem_ways {b : Binding} : b ∈ ex.ways routingKey headers name ↔
    b ∈ ex.bindings ∧ b.queueName = name ∧ ex.sends routingKey headers b = true := by
  simp [ways]

theorem Distinct.ways_le_one (distinct : ex.Distinct) :
    (ex.ways routingKey headers name).length ≤ 1 ↔
      ∀ b ∈ ex.ways routingKey headers name, ∀ b' ∈ ex.ways routingKey headers name,
        b.routingKey = b'.routingKey := by
  have apart : (ex.ways routingKey headers name).Pairwise fun b b' =>
      ¬ (b.queueName = b'.queueName ∧ b.routingKey = b'.routingKey) := distinct.filter _
  have named : ∀ b ∈ ex.ways routingKey headers name, b.queueName = name :=
    fun b member => (mem_ways.mp member).2.1
  generalize ex.ways routingKey headers name = found at apart named
  cases found with
  | nil => simp
  | cons b rest =>
    cases rest with
    | nil => simp
    | cons b' rest =>
      constructor
      · intro short
        simp at short
      · intro same
        have first := (List.pairwise_cons.mp apart).1 b' List.mem_cons_self
        have here := named b List.mem_cons_self
        have there := named b' (List.mem_cons_of_mem _ List.mem_cons_self)
        exact absurd ⟨here.trans there.symm, same b List.mem_cons_self b'
          (List.mem_cons_of_mem _ List.mem_cons_self)⟩ first

theorem Distinct.direct (distinct : ex.Distinct) (kind : ex.kind = .direct) :
    (ex.ways routingKey headers name).length ≤ 1 := by
  have keyed : ∀ b ∈ ex.ways routingKey headers name, b.routingKey = routingKey := by
    intro b member
    have sent := (mem_ways.mp member).2.2
    rw [sends, kind] at sent
    exact eq_of_beq sent
  exact distinct.ways_le_one.mpr fun b member b' member' =>
    (keyed b member).trans (keyed b' member').symm

theorem distinct_of_unbound (unbound : ex.bindings = []) : ex.Distinct := by
  rw [Distinct, unbound]
  exact .nil

theorem Distinct.addBinding (distinct : ex.Distinct) (b : Binding) : (ex.addBinding b).Distinct := by
  unfold Exchange.addBinding
  split
  · exact distinct
  · rename_i unknown
    refine List.pairwise_append.mpr ⟨distinct, List.pairwise_singleton _ _, ?_⟩
    intro old member new last same
    obtain rfl := List.mem_singleton.mp last
    exact unknown (binds_iff.mpr ⟨old, member, same⟩)

theorem Distinct.removeBinding (distinct : ex.Distinct) (queue key : String) :
    (ex.removeBinding queue key).Distinct := distinct.filter _

end Exchange

/-- What unbound exchanges are, and what exchanges stay whose bindings come and go. New
    bindings without arguments are allowed, and whatever others. -/
structure ExchangeLaw (P : Exchange → Prop) (allowed : Binding → Prop) : Prop where
  unbound : ∀ ex, ex.bindings = [] → P ex
  plain : ∀ queue key, allowed ⟨queue, key, none⟩
  adds : ∀ ex b, allowed b → P ex → P (ex.addBinding b)
  removes : ∀ ex queue key, P ex → P (ex.removeBinding queue key)

/-- The effect adds allowed bindings only; one that is added as it is keeps the exchange. -/
def Effect.BindsOnly (P : Exchange → Prop) (allowed : Binding → Prop) : Effect → Prop
  | .bind _ b _ => allowed b
  | .appendBinding _ b => ∀ ex, P ex → P { ex with bindings := ex.bindings ++ [b] }
  | _ => True

def BrokerState.AllExchanges (P : Exchange → Prop) (s : BrokerState) : Prop :=
  ∀ name ex, s.exchanges.get? name = some ex → P ex

def BrokerState.Distinct (s : BrokerState) : Prop :=
  ∀ name ex, s.exchanges.get? name = some ex → ex.Distinct

section
variable {env : Env} {s : BrokerState} {P : Exchange → Prop} {allowed : Binding → Prop}

theorem allExchanges_modifyExchange {f : Exchange → Exchange} (all : s.AllExchanges P)
    (keeps : ∀ ex, P ex → P (f ex)) (exchange : String) :
    (s.modifyExchange exchange f).AllExchanges P := by
  intro name ex found
  rw [get?_modifyExchange] at found
  split at found
  · obtain ⟨old, there, rfl⟩ := Option.map_eq_some_iff.mp found
    exact keeps old (all name old there)
  · exact all name ex found

theorem allExchanges_new (law : ExchangeLaw P allowed) (wal : SegmentCoordinator)
    (auth : AuthBackend) (cluster : Option ClusterCoordinator) :
    (BrokerState.new wal auth cluster).AllExchanges P :=
  fun _ ex found => law.unbound ex (createDefaultExchanges_unbound found)

theorem allExchanges_apply (law : ExchangeLaw P allowed) {now : Instant} {acked : List UInt64}
    (all : s.AllExchanges P) (r : LogRecord) : (r.apply env now acked s).AllExchanges P := by
  intro name ex found
  rw [get?_exchanges_apply] at found
  have old : s.exchanges.get? name = some ex → P ex := all name ex
  have added (queue key : String)
      (there : (s.exchanges.get? name).map (·.addBinding ⟨queue, key, none⟩) = some ex) :
      P ex := by
    obtain ⟨ex', present, rfl⟩ := Option.map_eq_some_iff.mp there
    exact law.adds ex' _ (law.plain queue key) (all name ex' present)
  cases r with
  | declareQueue queue durable =>
    rw [restoreExchange] at found
    split at found
    · exact added _ _ found
    · exact old found
  | bind exchange queue routingKey =>
    rw [restoreExchange] at found
    split at found
    · exact added _ _ found
    · exact old found
  | declareExchange exchange kindByte durable =>
    rw [restoreExchange] at found
    split at found
    · split at found
      · rename_i kind _
        obtain rfl := Option.some.inj found
        cases present : s.exchanges.get? name with
        | none => exact law.unbound _ rfl
        | some ex => exact all name ex present
      · exact old found
    · exact old found
  | _ => exact old found

theorem allExchanges_restart (law : ExchangeLaw P allowed) (now : Instant) (dir : Dir)
    (auth : AuthBackend) (cluster : Option ClusterCoordinator) :
    (restart env now dir auth cluster).AllExchanges P := by
  unfold restart recover
  dsimp only
  split
  · exact allExchanges_new law _ _ _
  · rw [replay_eq_replayRecords, replayRecords]
    generalize ackedOf _ = acked
    generalize List.filterMap LogRecord.parse _ = rs
    have applied : (run (LogRecord.apply env now acked) (.new (.new dir env.maxSegmentSize) auth
        cluster) rs).AllExchanges P :=
      Run.keeps (P := BrokerState.AllExchanges P) (fun _ r _ all => allExchanges_apply law all r)
        (fun _ _ => trivial) (allExchanges_new law _ _ _)
    exact applied

theorem allExchanges_exec (law : ExchangeLaw P allowed) {e : Effect} (all : s.AllExchanges P)
    (binds : e.BindsOnly P allowed) : (exec env s e).AllExchanges P := by
  have kept : ∀ t : BrokerState, t.exchanges = s.exchanges → t.AllExchanges P := by
    intro t same name ex found
    rw [same] at found
    exact all name ex found
  have memory : (e.inMemory env s).AllExchanges P → (exec env s e).AllExchanges P := by
    intro before name ex found
    rw [(exec_memory env s e).2.1] at found
    exact before name ex found
  refine memory ?_
  cases e with
  | books change => exact kept _ (change.exchanges s)
  | createQueue queue q logs schema =>
    cases logs with
    | false => exact kept _ rfl
    | true =>
      exact allExchanges_modifyExchange (s := { s with queues := s.queues.orInsert queue q.state })
        all (fun ex => law.adds ex _ (law.plain queue queue)) ""
  | createExchange exchange kind durable logs =>
    intro name ex found
    change (s.exchanges.orInsert exchange (.new exchange kind durable)).get? name = some ex at found
    rw [FinMap.get?_orInsert] at found
    split at found
    · obtain rfl := Option.some.inj found
      cases present : s.exchanges.get? exchange with
      | none => exact law.unbound _ rfl
      | some ex => exact all exchange ex present
    · exact all name ex found
  | removeExchange exchange =>
    intro name ex found
    change (s.exchanges.erase exchange).get? name = some ex at found
    rw [FinMap.get?_erase] at found
    split at found
    · cases found
    · exact all name ex found
  | bind exchange b logs => exact allExchanges_modifyExchange all (fun ex => law.adds ex b binds) _
  | unbind exchange queue routingKey =>
    exact allExchanges_modifyExchange all (fun ex => law.removes ex queue routingKey) _
  | appendBinding exchange b => exact allExchanges_modifyExchange all binds _
  | restart now auth cluster => exact allExchanges_restart law now _ auth cluster
  | _ => exact kept _ rfl

theorem distinct_law : ExchangeLaw Exchange.Distinct fun _ => True where
  unbound _ unbound := Exchange.distinct_of_unbound unbound
  plain _ _ := trivial
  adds _ b _ distinct := distinct.addBinding b
  removes _ queue key distinct := distinct.removeBinding queue key

def Effect.appends : Effect → Bool
  | .appendBinding .. => true
  | _ => false

theorem distinct_exec {e : Effect} (distinct : s.Distinct) (checks : e.appends = false) :
    (exec env s e).Distinct := by
  refine allExchanges_exec distinct_law distinct ?_
  cases e with
  | appendBinding => cases checks
  | _ => exact trivial

def Op.checksBindings : Op → Bool
  | .createBindingEq .. => false
  | _ => true

theorem performs_checks {op : Op} {e : Effect} (checks : op.checksBindings = true)
    (performs : op.performs e = true) : e.appends = false := by
  cases e with
  | appendBinding =>
    cases op with
    | createBindingEq => cases checks
    | _ => cases performs
  | _ => rfl

theorem distinct_reached (env : Env) (auth : AuthBackend) (cluster : Option ClusterCoordinator)
    (ops : List Op) (checks : ∀ op ∈ ops, op.checksBindings = true) :
    (reached env auth cluster ops).Distinct := by
  rw [reached_eq_run]
  refine Run.keeps (P := BrokerState.Distinct) (fun s op checks distinct => ?_) checks
    (allExchanges_new distinct_law _ _ _)
  have moves : Program.Takes (fun e => op.performs e = true)
      (handle op : Act env (List Frame)) := takes_handle op
  exact moves.keeps (fun t e performs before =>
    distinct_exec before (performs_checks checks performs)) distinct

end
end RocketmqBroker
