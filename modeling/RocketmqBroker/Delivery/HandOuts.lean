import RocketmqBroker.Delivery.Conservation
import RocketmqBroker.Delivery.Requests

/-!
What a run hands out of its queues, to consumers, to Basic.Get and to the management
interface: the front messages that are taken, whether they come back or not.
-/
namespace RocketmqBroker
open Run.Program

def frontAt (env : Env) (s : BrokerState) (queue : String) : List Message :=
  match s.queues.get? queue with
  | none => []
  | some q =>
    match q.messages.popFront with
    | none => []
    | some (qm, _) => (qm.resolve env.crc32 s.wal).toOption.toList

def Op.expiresMessages : Op → Bool
  | messageTtlTask _ => true
  | _ => false

/-- What a step hands out of a queue: the front message that it takes, unless the message goes
    back to the front because nobody took it, or goes because its time is over. -/
def Effect.handed (env : Env) (expires : Bool) (s : BrokerState) : Effect → List (String × Message)
  | pop queue fate =>
    if fate = .front ∨ fate = .drop ∧ expires = true then []
    else (frontAt env s queue).map (queue, ·)
  | _ => []

/-- A run with the ids that came into each queue and all that was handed out. What recovery
    finds has come in before, as far as the queue was given as many with the id. -/
structure HandOuts where
  broker : BrokerState
  entered : String → Multiset UInt64
  handed : List (String × Message)

namespace HandOuts

def step (env : Env) (expires : Bool) (h : HandOuts) (e : Effect) : HandOuts where
  broker := exec env h.broker e
  entered name :=
    if e.restarts then h.entered name ∪ heldAt (exec env h.broker e) name
    else h.entered name + (idsOf name (e.arrived h.broker) : Multiset UInt64)
  handed := h.handed ++ e.handed env expires h.broker

def serve (env : Env) (h : HandOuts) (op : Op) : HandOuts :=
  Run.run (step env op.expiresMessages) h ((handle op : Act env (List Frame)).steps h.broker)

def start (env : Env) (auth : AuthBackend) (cluster : Option ClusterCoordinator) : HandOuts :=
  ⟨install env auth cluster, fun _ => 0, []⟩

def after (env : Env) (auth : AuthBackend) (cluster : Option ClusterCoordinator)
    (ops : List Op) : HandOuts :=
  Run.run (serve env) (start env auth cluster) ops

end HandOuts

section
variable {env : Env} {s : BrokerState} {e : Effect} {expires : Bool} {name queue : String}
  {m : Message}

theorem frontAt_of {q : QueueState} {first : QueueMessage} {rest : PriorityQueue}
    (found : s.queues.get? queue = some q) (popped : q.messages.popFront = some (first, rest)) :
    frontAt env s queue = (first.resolve env.crc32 s.wal).toOption.toList := by
  unfold frontAt
  rw [found]
  dsimp only
  rw [popped]

theorem mem_frontAt (front : m ∈ frontAt env s queue) :
    ∃ q first, s.queues.get? queue = some q ∧ q.Front env s.wal first m := by
  unfold frontAt at front
  split at front
  · contradiction
  · rename_i q found
    split at front
    · contradiction
    · rename_i first rest popped
      refine ⟨q, first, found, by rw [popped]; rfl, ?_⟩
      cases read : first.resolve env.crc32 s.wal with
      | error err =>
        rw [read] at front
        contradiction
      | ok m' =>
        rw [read] at front
        rw [List.mem_singleton.mp front]

theorem mem_frontAt_of {q : QueueState} {first : QueueMessage}
    (found : s.queues.get? queue = some q) (front : q.Front env s.wal first m) :
    m ∈ frontAt env s queue := by
  obtain ⟨⟨_, rest⟩, popped, rfl⟩ := Option.map_eq_some_iff.mp front.1
  rw [frontAt_of found popped, front.2]
  exact List.mem_singleton_self _

theorem frontAt_length : (frontAt env s queue).length ≤ 1 := by
  unfold frontAt
  split
  · exact Nat.zero_le _
  · split
    · exact Nat.zero_le _
    · exact Option.length_toList_le

theorem mem_handed (member : (name, m) ∈ e.handed env expires s) :
    ∃ fate, e = .pop name fate ∧ fate ≠ .front ∧ m ∈ frontAt env s name := by
  cases e with
  | pop queue fate =>
    simp only [Effect.handed] at member
    split at member
    · contradiction
    · rename_i given
      obtain ⟨m', front, same⟩ := List.mem_map.mp member
      obtain ⟨rfl, rfl⟩ := Prod.mk.inj same
      exact ⟨fate, rfl, fun back => given (.inl back), front⟩
  | _ => contradiction

theorem handed_length : (e.handed env expires s).length ≤ 1 := by
  unfold Effect.handed
  split
  · split
    · exact Nat.zero_le _
    · rw [List.length_map]
      exact frontAt_length
  · exact Nat.zero_le _

theorem broker_steps (expires : Bool) (h : HandOuts) (es : List Effect) :
    (Run.run (HandOuts.step env expires) h es).broker = Run.run (exec env) h.broker es :=
  Run.run_map (fun _ _ => rfl) h es

theorem broker_serve (h : HandOuts) (op : Op) :
    (h.serve env op).broker = served env h.broker op := broker_steps _ _ _

theorem broker_after (env : Env) (auth : AuthBackend) (cluster : Option ClusterCoordinator)
    (ops : List Op) : (HandOuts.after env auth cluster ops).broker =
      reached env auth cluster ops := by
  rw [reached_eq_run]
  exact Run.run_map broker_serve _ ops

end

end RocketmqBroker
