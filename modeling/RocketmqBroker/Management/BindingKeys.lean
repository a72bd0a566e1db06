import RocketmqBroker.Delivery.Requests
import RocketmqBroker.Storage.Recovered

/-!
The name under which the management API lists a binding, and the binding that it deletes by
that name (management/routes/bindings.rs). The empty routing key has a name of its own, which
is also the name of another key.
-/
namespace RocketmqBroker
open Run.Program

structure BindingInfo where
  source : String
  vhost : String
  destination : String
  destinationType : String
  routingKey : String
  propertiesKey : String
  deriving DecidableEq, Repr

def propertiesKeyOf (routingKey : String) : String :=
  if routingKey.isEmpty then "~" else routingKey

/-- What `delete_binding_eq` takes the key for. -/
def routingKeyOf (propertiesKey : String) : String :=
  if propertiesKey = "~" then "" else propertiesKey

def Binding.info (source : String) (b : Binding) : BindingInfo where
  source := source
  vhost := "/"
  destination := b.queueName
  destinationType := "queue"
  routingKey := b.routingKey
  propertiesKey := propertiesKeyOf b.routingKey

/-- The exchanges come in the order of the map. -/
def queueBindingsVhost (s : BrokerState) (queueName : String) : List BindingInfo :=
  s.exchanges.entries.flatMap fun e =>
    (e.2.bindings.filter fun b => b.queueName == queueName).map (Binding.info e.1)

/-- The bindings of the queue under the listed routing key go, and no other binding. -/
def DeletesListed (env : Env) (s : BrokerState) (queueName : String) (info : BindingInfo) :
    Prop :=
  ∀ name, ((served env s (.deleteBindingEq info.source info.destination
      info.propertiesKey)).exchanges.get? name).map Exchange.bindings =
    (s.exchanges.get? name).map fun ex => ex.bindings.filter fun b =>
      !decide (name = info.source ∧ b.queueName = queueName ∧ b.routingKey = info.routingKey)

theorem routingKeyOf_propertiesKeyOf (key : String) :
    routingKeyOf (propertiesKeyOf key) = key ↔ key ≠ "~" := by
  unfold propertiesKeyOf
  by_cases empty : key = ""
  · subst empty
    exact iff_of_true rfl (by decide)
  · rw [if_neg fun none_there => empty (String.isEmpty_iff.mp none_there)]
    unfold routingKeyOf
    by_cases same : key = "~"
    · subst same
      exact iff_of_false (by decide) (not_not.mpr rfl)
    · rw [if_neg same]
      exact iff_of_true rfl same

section
variable {env : Env} {s : BrokerState} {queueName : String} {info : BindingInfo}

theorem mem_queueBindingsVhost : info ∈ queueBindingsVhost s queueName ↔
    ∃ source ex b, s.exchanges.get? source = some ex ∧ b ∈ ex.bindings ∧
      b.queueName = queueName ∧ b.info source = info := by
  unfold queueBindingsVhost
  simp only [List.mem_flatMap, List.mem_map, List.mem_filter, beq_iff_eq]
  constructor
  · rintro ⟨⟨source, ex⟩, listed, b, ⟨member, named⟩, same⟩
    exact ⟨source, ex, b, FinMap.get?_eq_some_iff_mem.mpr listed, member, named, same⟩
  · rintro ⟨source, ex, b, found, member, named, same⟩
    exact ⟨⟨source, ex⟩, FinMap.get?_eq_some_iff_mem.mp found, b, ⟨member, named⟩, same⟩

theorem exchanges_deleteBindingEq (source dest propertiesKey name : String) :
    ((served env s (.deleteBindingEq source dest propertiesKey)).exchanges.get? name).map
      Exchange.bindings = (s.exchanges.get? name).map fun ex => ex.bindings.filter fun b =>
        !decide (name = source ∧ b.queueName = dest ∧
          b.routingKey = routingKeyOf propertiesKey) := by
  have after : (served env s (.deleteBindingEq source dest propertiesKey)).exchanges.get? name =
      if name = source then
        (s.exchanges.get? name).map (·.removeBinding dest (routingKeyOf propertiesKey))
      else s.exchanges.get? name :=
    get?_modifyExchange s source name (·.removeBinding dest (routingKeyOf propertiesKey))
  rw [after]
  by_cases here : name = source
  · rw [if_pos here, Option.map_map]
    refine congrArg (Option.map · _) (funext fun ex => List.filter_congr fun b _ => ?_)
    have same : (b.queueName == dest && b.routingKey == routingKeyOf propertiesKey) =
        decide (name = source ∧ b.queueName = dest ∧
          b.routingKey = routingKeyOf propertiesKey) := by
      rw [Bool.eq_iff_iff]
      simp [here]
    exact congrArg (!·) same
  · rw [if_neg here]
    refine congrArg (Option.map · _) (funext fun ex => ?_)
    refine (List.filter_eq_self.mpr fun b _ => ?_).symm
    rw [decide_eq_false fun removed => here removed.1]
    rfl

/-- A listed binding is deleted by its name, with those under the same key and no other,
    exactly if its routing key is not the name of the empty one. -/
theorem binding_key_identifies_iff (env : Env) (listed : info ∈ queueBindingsVhost s queueName) :
    DeletesListed env s queueName info ↔ info.routingKey ≠ "~" := by
  obtain ⟨source, ex, b, found, member, rfl, rfl⟩ := mem_queueBindingsVhost.mp listed
  rw [← routingKeyOf_propertiesKeyOf]
  unfold DeletesListed
  simp only [exchanges_deleteBindingEq]
  constructor
  · intro deletes
    by_contra other
    have kept := deletes source
    rw [found, Option.map_some, Option.map_some] at kept
    have still : b ∈ ex.bindings.filter fun b' => !decide (source = (b.info source).source ∧
        b'.queueName = (b.info source).destination ∧
        b'.routingKey = routingKeyOf (b.info source).propertiesKey) := by
      refine List.mem_filter.mpr ⟨member, ?_⟩
      rw [decide_eq_false fun removed => other removed.2.2.symm]
      rfl
    rw [Option.some.inj kept] at still
    have removed : decide (source = (b.info source).source ∧ b.queueName = b.queueName ∧
        b.routingKey = (b.info source).routingKey) = true := decide_eq_true ⟨rfl, rfl, rfl⟩
    have left := (List.mem_filter.mp still).2
    rw [removed] at left
    cases left
  · intro back name
    have key : routingKeyOf (b.info source).propertiesKey = (b.info source).routingKey := back
    rw [key]
    rfl

end

/-- The queue q is bound to amq.direct under the empty key and under "~". -/
def boundUnderTilde : BrokerState := reached (plainEnv 64 1) guestOnly none (session "q" ++
  [.queueBind "q" "amq.direct" "" false, .queueBind "q" "amq.direct" "~" false])

/-- The binding of the queue to amq.direct under a key, as it is listed. -/
def listedUnder (routingKey : String) : BindingInfo :=
  ⟨"amq.direct", "/", "q", "queue", routingKey, propertiesKeyOf routingKey⟩

theorem binding_key_identifies_empty :
    DeletesListed (plainEnv 64 1) boundUnderTilde "q" (listedUnder "") ↔
      (listedUnder "").routingKey ≠ "~" := by
  have listed : (queueBindingsVhost boundUnderTilde "q").contains (listedUnder "") = true := by
    decide +kernel
  exact binding_key_identifies_iff (plainEnv 64 1) (List.contains_iff_mem.mp listed)

/-- Both are listed by one name, and the one that is not meant is deleted. -/
theorem binding_key_shared :
    (queueBindingsVhost boundUnderTilde "q").contains (listedUnder "~") = true ∧
    ¬ DeletesListed (plainEnv 64 1) boundUnderTilde "q" (listedUnder "~") ∧
    ((served (plainEnv 64 1) boundUnderTilde (.deleteBindingEq "amq.direct" "q"
      (listedUnder "~").propertiesKey)).exchanges.get? "amq.direct").map (·.bindings) =
      some [⟨"q", "~", none⟩] := by
  have left : ((served (plainEnv 64 1) boundUnderTilde (.deleteBindingEq "amq.direct" "q"
      (listedUnder "~").propertiesKey)).exchanges.get? "amq.direct").map (·.bindings) =
      some [⟨"q", "~", none⟩] := by decide +kernel
  have before : (boundUnderTilde.exchanges.get? "amq.direct").map (·.bindings) =
      some [⟨"q", "", none⟩, ⟨"q", "~", none⟩] := by decide +kernel
  refine ⟨by decide +kernel, fun deletes => ?_, left⟩
  have meant := (deletes "amq.direct").symm.trans left
  obtain ⟨ex, found, bindings⟩ := Option.map_eq_some_iff.mp before
  rw [found, Option.map_some, bindings] at meant
  exact absurd meant (by decide)

end RocketmqBroker
