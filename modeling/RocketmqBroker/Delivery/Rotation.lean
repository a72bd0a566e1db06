import RocketmqBroker.Consumers.Lists
import RocketmqBroker.Delivery.Turns

/-!
Consumers and listeners take turns. Both searches start where the last one stopped and go around
once, so from any pointer they find one who is eligible if there is one, and as long as all are,
each in turn.
-/
namespace RocketmqBroker
open RoundRobin

def connectedTarget (s : BrokerState) (targets : List (UInt64 × UInt16)) (pointer : Nat) :
    Nat → Nat × Option (UInt64 × UInt16)
  | 0 => (pointer, none)
  | turns + 1 =>
    match targets[pointer % targets.length]? with
    | none => (pointer, none)
    | some target =>
      if s.connState.contains target.1 then (pointer + 1, some target)
      else connectedTarget s targets (pointer + 1) turns

structure PointedGroup extends ConsumerGroup where
  nextMember : Nat

def PointedGroup.nextTarget (s : BrokerState) (g : PointedGroup) :
    Option (UInt64 × UInt16) × PointedGroup :=
  if g.members.isEmpty then (none, g)
  else
    let (nextMember, found) := connectedTarget s g.members g.nextMember g.members.length
    (found, { g with nextMember })

def nextOfGroups (s : BrokerState) :
    List PointedGroup → Option (UInt64 × UInt16) × List PointedGroup
  | [] => (none, [])
  | g :: groups =>
    match g.nextTarget s with
    | (some target, g) => (some target, g :: groups)
    | (none, g) =>
      let (found, groups) := nextOfGroups s groups
      (found, g :: groups)

/-- The groups of the queue are those given, in the order in which they are visited. -/
def QueueState.nextTarget (s : BrokerState) (groups : List PointedGroup) (q : QueueState) :
    Option (UInt64 × UInt16) × List PointedGroup × QueueState :=
  if !groups.isEmpty then
    let (found, groups) := nextOfGroups s groups
    (found, groups, q)
  else if q.listeners.isEmpty then (none, groups, q)
  else
    let (nextListener, found) :=
      connectedTarget s q.listeners q.nextListener q.listeners.length
    (found, groups, { q with nextListener })

section
variable {env : Env} {s : BrokerState} {queue : String}

theorem connectedTarget_eq (targets : List (UInt64 × UInt16)) (pointer turns : Nat) :
    connectedTarget s targets pointer turns =
      pick (fun target => s.connState.contains target.1) targets pointer turns := by
  induction turns generalizing pointer with
  | zero => rfl
  | succ turns ih =>
    unfold connectedTarget pick
    cases targets[pointer % targets.length]? with
    | none => rfl
    | some target =>
      dsimp only
      rw [ih]

theorem nextTarget_listeners (q : QueueState) :
    let turn := pick (fun target => s.connState.contains target.1) q.listeners q.nextListener
      q.listeners.length
    (q.nextTarget s []).1 = turn.2 ∧ (q.nextTarget s []).2.2.nextListener = turn.1 := by
  dsimp only
  rw [← connectedTarget_eq]
  unfold QueueState.nextTarget
  cases q.listeners with
  | nil => exact ⟨rfl, rfl⟩
  | cons target targets => exact ⟨rfl, rfl⟩

def BrokerState.pointer? (s : BrokerState) (queue : String) : Option Nat :=
  (s.queues.get? queue).map (·.nextListener)

theorem nextReadyConsumer_turn {consumers : List Consumer} {pointer : Nat}
    (here : s.pointer? queue = some pointer) :
    let turn := pick (fun c => hasPrefetchCapacity s c.connId c.channel) consumers pointer
      consumers.length
    (nextReadyConsumer queue consumers : Act env _).result s = turn.2 ∧
      ((nextReadyConsumer queue consumers : Act env _).final s).pointer? queue = some turn.1 := by
  obtain ⟨q, found, rfl⟩ := Option.map_eq_some_iff.mp here
  have start : ((s.queues.get? queue).map (·.nextListener)).getD 0 = q.nextListener := by
    rw [found]
    rfl
  dsimp only
  rw [← readyConsumer_eq]
  constructor
  · exact congrArg (fun p => (readyConsumer s consumers p consumers.length).2) start
  · refine Eq.trans ?_ (congrArg (fun p => some (readyConsumer s consumers p consumers.length).1)
      start)
    change ((s.modifyQueue queue _).queues.get? queue).map _ = _
    rw [get?_modifyQueue, if_pos rfl, Option.map_map]
    exact congrArg (Option.map _) found

/-- From any pointer a call finds one who is eligible if there is one, and as many calls as there
    are find each once while all are: of the consumers with prefetch capacity, whatever else
    happens between the calls, and of the connected listeners of a queue without groups. -/
theorem next_in_turn (env : Env) (queue : String) (consumers : List Consumer)
    (listeners : List (UInt64 × UInt16)) :
    TakesTurns consumers (fun s c => hasPrefetchCapacity s c.connId c.channel)
      (fun s => (s.pointer? queue).isSome)
      (nextReadyConsumer queue consumers : Act env (Option Consumer)).result
      (fun s t => t.pointer? queue =
        ((nextReadyConsumer queue consumers : Act env _).final s).pointer? queue) ∧
    TakesTurns listeners
      (fun (visit : BrokerState × QueueState) target => visit.1.connState.contains target.1)
      (fun visit => visit.2.listeners = listeners) (fun visit => (visit.2.nextTarget visit.1 []).1)
      (fun visit later =>
        later.2.nextListener = (visit.2.nextTarget visit.1 []).2.2.nextListener) := by
  constructor
  · refine takesTurns (fun s => (s.pointer? queue).getD 0) (fun s present => ?_)
      fun s t present present' goes_on => ?_
    · obtain ⟨pointer, here⟩ := Option.isSome_iff_exists.mp present
      rw [(nextReadyConsumer_turn here).1, here]
      rfl
    · obtain ⟨pointer, here⟩ := Option.isSome_iff_exists.mp present
      rw [goes_on, (nextReadyConsumer_turn here).2, here]
      rfl
  · refine takesTurns (fun visit => visit.2.nextListener) ?_ ?_
    · rintro ⟨s, q⟩ rfl
      exact (nextTarget_listeners q).1
    · rintro ⟨s, q⟩ ⟨t, q'⟩ rfl - goes_on
      exact goes_on.trans (nextTarget_listeners q).2

end
end RocketmqBroker
