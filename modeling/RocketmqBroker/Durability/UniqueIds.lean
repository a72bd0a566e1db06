import RocketmqBroker.Durability.Identity

/-!
When the messages of all queues have ids of their own. Five paths put messages into
queues. Two of them take a new id from the counter for every queue, but the counter
starts over with the process; the management interface takes one id for all queues;
a replicated message brings its id along; and recovery takes the ids from the log.
-/
namespace RocketmqBroker

def BrokerState.Unheld (s : BrokerState) (id : UInt64) : Prop := ∀ name, id ∉ heldAt s name

structure RestoresDistinct (rs : List LogRecord) : Prop where
  within : ∀ name, (restoredIds rs name).Nodup
  across : ∀ a b id, id ∈ restoredIds rs a → id ∈ restoredIds rs b → a = b

/-- A message that comes into a queue has an id that is not in use. -/
def UniqueArrival (env : Env) (s : BrokerState) : Effect → Prop
  | .enqueue queue _ _ => s.queues.contains queue = true → s.Unheld s.nextMsgId
  | .enqueueFull queue _ _ _ _ => s.queues.contains queue = true → s.Unheld s.nextMsgId
  | .pushFull queue m => s.queues.contains queue = true → s.Unheld m.id
  | .replicatePublish queue msgId _ => s.queues.contains queue = true → s.Unheld msgId
  | .restart _ _ _ => RestoresDistinct (recordsFound env s)
  | _ => True

section
variable {env : Env} {s : BrokerState} {e : Effect} {name : String} {id : UInt64}

theorem mem_idsAt_of_contains {queue : String} :
    (name, id) ∈ (idsAt s queue fun _ => [id]) ↔
      name = queue ∧ s.queues.contains queue = true := by
  constructor
  · intro member
    obtain ⟨same, q, found, -⟩ := mem_idsAt member
    exact ⟨same, Option.isSome_iff_exists.mpr ⟨q, found⟩⟩
  · rintro ⟨rfl, contained⟩
    obtain ⟨q, found⟩ := Option.isSome_iff_exists.mp contained
    unfold idsAt
    rw [found]
    exact List.mem_singleton_self _

theorem unheld_idsAt {queue : String} {x : UInt64} :
    (∀ name id, (name, id) ∈ (idsAt s queue fun _ => [x]) → s.Unheld id) ↔
      (s.queues.contains queue = true → s.Unheld x) := by
  constructor
  · intro unheld contained
    exact unheld queue x (mem_idsAt_of_contains.mpr ⟨rfl, contained⟩)
  · intro unheld name id member
    obtain ⟨rfl, rfl⟩ := mem_idsAt_single member
    exact unheld (mem_idsAt_of_contains.mp member).2

theorem uniqueArrival_iff (goesOn : e.restarts = false) :
    UniqueArrival env s e ↔ ∀ name id, (name, id) ∈ e.arrived s → s.Unheld id := by
  cases e with
  | enqueue | enqueueFull | pushFull | replicatePublish => exact unheld_idsAt.symm
  | restart => contradiction
  | _ => exact iff_of_true trivial fun _ _ member => by cases member

theorem heldAt_arrived (tagged : Tagged s) (goesOn : e.restarts = false)
    (arrives : (name, id) ∈ e.arrived s) (other : String) :
    heldAt (exec env s e) other =
      heldAt s other + (idsOf other (e.arrived s) : Multiset UInt64) := by
  have still : e.dropped env s ++ e.settled s = [] := by
    cases e with
    | enqueue | enqueueFull | pushFull | replicatePublish => rfl
    | _ => cases arrives
  have held := held_exec env tagged (goesOn_of_restarts goesOn) other
  have none : (idsOf other [] : Multiset UInt64) = 0 := rfl
  rw [still, none, add_zero] at held
  exact held

theorem unheld_of_liveDistinct (tagged : Tagged s) (goesOn : e.restarts = false)
    (live : LiveDistinct (exec env s e)) (arrives : (name, id) ∈ e.arrived s) : s.Unheld id := by
  intro other held
  have new : id ∈ (idsOf name (e.arrived s) : Multiset UInt64) :=
    Multiset.mem_coe.mpr (mem_idsOf.mpr arrives)
  have first : id ∈ heldAt (exec env s e) name := by
    rw [heldAt_arrived tagged goesOn arrives]
    exact Multiset.mem_add.mpr (.inr new)
  have second : id ∈ heldAt (exec env s e) other := by
    rw [heldAt_arrived tagged goesOn arrives]
    exact Multiset.mem_add.mpr (.inl held)
  obtain rfl := live.across name other id first second
  have within := live.within name
  rw [heldAt_arrived tagged goesOn arrives, Multiset.nodup_add] at within
  exact Multiset.disjoint_left.mp within.2.2 held new

theorem liveDistinct_found (now : Instant) (auth : AuthBackend)
    (cluster : Option ClusterCoordinator) :
    LiveDistinct (exec env s (.restart now auth cluster)) ↔
      RestoresDistinct (recordsFound env s) := by
  have held (name : String) : heldAt (exec env s (.restart now auth cluster)) name =
      (restoredIds (recordsFound env s) name : Multiset UInt64) :=
    heldAt_found env s now auth cluster name
  constructor
  · intro live
    refine ⟨fun name => ?_, fun a b id first second => ?_⟩
    · have within := live.within name
      rw [held] at within
      exact Multiset.coe_nodup.mp within
    · refine live.across a b id ?_ ?_
      · rw [held]
        exact Multiset.mem_coe.mpr first
      · rw [held]
        exact Multiset.mem_coe.mpr second
  · intro distinct
    refine ⟨fun name => ?_, fun a b id first second => ?_⟩
    · rw [held]
      exact Multiset.coe_nodup.mpr (distinct.within name)
    · rw [held] at first second
      exact distinct.across a b id (Multiset.mem_coe.mp first) (Multiset.mem_coe.mp second)

theorem liveDistinct_step (tagged : Tagged s) (live : LiveDistinct s) :
    LiveDistinct (exec env s e) ↔ UniqueArrival env s e := by
  cases restarts : e.restarts with
  | true =>
    cases e with
    | restart now auth cluster => exact liveDistinct_found now auth cluster
    | _ => cases restarts
  | false =>
    rw [uniqueArrival_iff restarts]
    constructor
    · intro after name id arrives
      exact unheld_of_liveDistinct tagged restarts after arrives
    · intro unheld
      exact liveDistinct_arrived restarts tagged unheld live

theorem liveDistinct_install (env : Env) (auth : AuthBackend)
    (cluster : Option ClusterCoordinator) : LiveDistinct (install env auth cluster) := by
  constructor
  · intro name
    exact Multiset.nodup_zero
  · intro a b id first
    exact absurd first (Multiset.notMem_zero id)

/-- Ids are unique in all states of exactly the runs in which every message comes in
    under an id that is not in use. -/
theorem ids_unique_iff (env : Env) (auth : AuthBackend) (cluster : Option ClusterCoordinator)
    (ops : List Op) :
    (∀ before after, history env auth cluster ops = before ++ after →
      LiveDistinct (Run.run (exec env) (install env auth cluster) before)) ↔
      Throughout env auth cluster (UniqueArrival env) ops := by
  refine (Run.throughout_iff_along Tagged (liveDistinct_install env auth cluster) ?_
    (fun s e _ tagged => tagged_exec tagged)
    fun s e _ tagged live => liveDistinct_step tagged live).trans ⟨.mk, Throughout.along⟩
  intro name q found
  cases found

end

def fanout : List Op := session "a" ++
  [.queueDeclare 1 ⟨"b", false, true, false, false, false, []⟩ 0,
    .queueBind "a" "amq.fanout" "" false, .queueBind "b" "amq.fanout" "" false]

/-- A message through the management interface has one id in both queues. -/
theorem managed_publish_repeats : ¬ ∀ ops : List Op,
    LiveDistinct (reached (plainEnv 64 1) guestOnly none ops) := by
  intro live
  let ops := fanout ++ [.publishMessage "amq.fanout" "" [7]]
  have first : (1 : UInt64) ∈ heldAt (reached (plainEnv 64 1) guestOnly none ops) "a" := by
    decide +kernel
  have second : (1 : UInt64) ∈ heldAt (reached (plainEnv 64 1) guestOnly none ops) "b" := by
    decide +kernel
  have same : "a" = "b" := (live ops).across "a" "b" 1 first second
  exact absurd same (by decide)

end RocketmqBroker
