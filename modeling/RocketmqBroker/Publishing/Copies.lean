import RocketmqBroker.Lib.StepCount
import RocketmqBroker.Publishing.Validation
import RocketmqBroker.Routing.Bindings

/-!
How often one publish puts its message into a queue. Routing goes through the bindings, and does
not look whether the queue of a binding was met before.
-/
namespace RocketmqBroker
open Run Run.Program

def Effect.fills : Effect → Option String
  | .enqueue queue _ _ => some queue
  | .enqueueFull queue _ _ _ _ => some queue
  | .pushFull queue _ => some queue
  | .replicatePublish queue _ _ => some queue
  | _ => none

def reaches (name : String) (s : BrokerState) (e : Effect) : Bool :=
  e.fills == some name && s.queues.contains name

/-- How many messages a request puts into a queue. -/
def copies (env : Env) (s : BrokerState) (op : Op) (name : String) : Nat :=
  (handle op : Act env (List Frame)).count (reaches name) s

section
variable {env : Env} {s : BrokerState} {name queue : String} {ctx : EnqueueCtx} {now : Instant}

theorem count_unfilled {α : Type} {p : Act env α} (takes : Takes (fun e => e.fills = none) p)
    (s : BrokerState) : p.count (reaches name) s = 0 := by
  refine takes.count_eq_zero (fun t e none => ?_) s
  rw [reaches, none]
  rfl

theorem count_evictOverflow (maxLen fuel : Nat) :
    (evictOverflow queue maxLen fuel : Act env Unit).count (reaches name) s = 0 := by
  have pops : Takes (fun e => .popOldest queue = e)
      (evictOverflow queue maxLen fuel : Act env Unit) := takes_evictOverflow rfl maxLen fuel
  refine count_unfilled (pops.mono fun e oldest => ?_) s
  subst oldest
  rfl

theorem contains_evictOverflow (maxLen fuel : Nat) :
    ((evictOverflow queue maxLen fuel : Act env Unit).final s).queues.contains name =
      s.queues.contains name := by
  unfold FinMap.contains
  rw [get?_evictOverflow]
  split
  · exact Option.isSome_map
  · rfl

theorem count_enqueueSingle : (enqueueSingle queue ctx now : Act env Unit).count (reaches name) s =
    (queue == name && s.queues.contains name).toNat := by
  have push (t : BrokerState) (same : t.queues.contains name = s.queues.contains name) :
      (perform (.enqueue queue ctx now) : Act env Unit).count (reaches name) t =
        (queue == name && s.queues.contains name).toNat := by
    rw [← same]
    exact count_perform _ _
  unfold enqueueSingle
  rw [count_bind, result_look, final_look]
  change 0 + _ = _
  rw [Nat.zero_add]
  cases s.queues.get? queue with
  | none => exact push s rfl
  | some q =>
    dsimp only
    cases q.options.maxLength with
    | none => exact push s rfl
    | some maxLen =>
      dsimp only
      rw [count_bind, count_evictOverflow, Nat.zero_add]
      exact push _ (contains_evictOverflow maxLen q.messages.len)

theorem contains_enqueueSingle :
    ((enqueueSingle queue ctx now : Act env Unit).final s).queues.contains name =
      s.queues.contains name := by
  unfold FinMap.contains
  rw [get?_enqueueSingle]
  split
  · exact Option.isSome_map
  · rfl

theorem count_pushAll (targets : List String) :
    (pushAll ctx now targets : Act env PUnit).count (reaches name) s =
      if s.queues.contains name then targets.count name else 0 := by
  induction targets generalizing s with
  | nil => exact (ite_self 0).symm
  | cons queue targets ih =>
    have first : (pushAll ctx now (queue :: targets) : Act env PUnit).count (reaches name) s =
        (enqueueSingle queue ctx now : Act env Unit).count (reaches name) s +
          (pushAll ctx now targets : Act env PUnit).count (reaches name)
            ((enqueueSingle queue ctx now : Act env Unit).final s) := count_bind _ _ _
    rw [first, count_enqueueSingle, ih, contains_enqueueSingle, List.count_cons]
    cases s.queues.contains name with
    | false =>
      rw [Bool.and_false]
      rfl
    | true =>
      rw [Bool.and_true, if_pos rfl, if_pos rfl, Nat.add_comm]
      cases queue == name with
      | false => rfl
      | true => rfl

end

section
variable {env : Env} {s : BrokerState} {name : String} {args : PublishArgs} {now : Instant}
  {tag : Option UInt64}

theorem count_routePublish :
    (routePublish args now tag : Act env (List Frame)).count (reaches name) s =
      match s.exchanges.get? args.exchange with
      | none => 0
      | some ex =>
        if (schemaFailure env s (args.targets env ex) args.body).isNone ∧
            s.queues.contains name = true then (args.targets env ex).count name
        else 0 := by
  unfold routePublish
  rw [count_bind, result_look, final_look]
  change 0 + _ = _
  rw [Nat.zero_add]
  cases s.exchanges.get? args.exchange with
  | none => rfl
  | some ex =>
    dsimp only
    split
    · rename_i unrouted
      rw [List.isEmpty_iff.mp unrouted]
      exact (ite_self 0).symm
    · rw [count_bind, result_look, final_look]
      change 0 + _ = _
      rw [Nat.zero_add]
      cases schemaFailure env s (args.targets env ex) args.body with
      | some failure =>
        rw [if_neg (fun h => Bool.false_ne_true h.1)]
        exact count_pure _ _
      | none =>
        have pushes : (do
            (args.targets env ex).forM fun queue => enqueueSingle queue args.ctx now
            return confirmAck tag : Act env (List Frame)).count (reaches name) s =
            (pushAll args.ctx now (args.targets env ex) : Act env PUnit).count (reaches name) s :=
          count_bind _ _ _
        refine pushes.trans ((count_pushAll _).trans ?_)
        simp

/-- A publish that is neither denied, nor buffered, nor refused by a schema, and comes to this
    exchange. -/
structure Routed (env : Env) (s : BrokerState) (connId : UInt64) (args : PublishArgs)
    (ex : Exchange) : Prop where
  permitted : checkPermission env s connId (·.write) args.exchange = true
  direct : s.inTx connId = false
  found : s.exchanges.get? args.exchange = some ex
  accepted : ∀ b ∈ ex.bindings,
    ex.sends args.routingKey (resolvePublishHeaders env args.properties) b = true →
      schemaRefusal env s args.body b.queueName = none

variable {connId : UInt64} {channel : UInt16} {ex : Exchange}

theorem accepted_iff : schemaFailure env s (args.targets env ex) args.body = none ↔
    ∀ b ∈ ex.bindings,
      ex.sends args.routingKey (resolvePublishHeaders env args.properties) b = true →
        schemaRefusal env s args.body b.queueName = none := by
  rw [schemaFailure_eq_none]
  constructor
  · intro accepted b member sent
    exact accepted b.queueName (Exchange.mem_routeEach.mpr ⟨b, member, sent, rfl⟩)
  · intro accepted queue target
    obtain ⟨b, member, sent, rfl⟩ := Exchange.mem_routeEach.mp target
    exact accepted b member sent

theorem count_allocConfirmTag :
    (allocConfirmTag connId channel : Act env (Option UInt64)).count (reaches name) s = 0 := by
  have books : ∀ b : Bookkeeping, b.BuffersOnly none → (Effect.books b).fills = none :=
    fun _ _ => rfl
  exact count_unfilled (takes_allocConfirmTag books connId channel) s

theorem count_bufferTxPublish :
    (bufferTxPublish connId args : Act env Bool).count (reaches name) s = 0 :=
  count_unfilled (takes_bufferTxPublish (fun _ _ => rfl) connId args rfl) s

theorem copies_publish : copies env s (.basicPublish connId channel args now) name =
    if checkPermission env s connId (·.write) args.exchange = true ∧ s.inTx connId = false then
      (routePublish args now (s.confirmTag? connId channel) : Act env (List Frame)).count
        (reaches name) (s.numbered connId channel)
    else 0 := by
  change (basicPublish connId channel args now : Act env (List Frame)).count (reaches name) s = _
  rw [basicPublish_eq, count_bind]
  change 0 + (if !checkPermission env s connId (·.write) args.exchange then _ else
    allocConfirmTag connId channel >>= _ : Act env (List Frame)).count (reaches name) s = _
  rw [Nat.zero_add]
  cases checkPermission env s connId (·.write) args.exchange with
  | false =>
    simp only [Bool.not_false, if_true, Bool.false_eq_true, false_and, if_false]
    exact count_pure _ _
  | true =>
    simp only [Bool.not_true, Bool.false_eq_true, if_false, true_and]
    rw [count_bind, count_allocConfirmTag, Nat.zero_add, allocConfirmTag_at.1, allocConfirmTag_at.2,
      count_bind, count_bufferTxPublish, Nat.zero_add, bufferTxPublish_at.1, bufferTxPublish_at.2,
      numbered_inTx]
    cases s.inTx connId with
    | false => rfl
    | true => rfl

theorem copies_routed (routed : Routed env s connId args ex) :
    copies env s (.basicPublish connId channel args now) name =
      if s.queues.contains name then
        (ex.ways args.routingKey (resolvePublishHeaders env args.properties) name).length
      else 0 := by
  obtain ⟨conns, numbered⟩ := s.numbered_connState connId channel
  have accepted := accepted_iff.mpr routed.accepted
  rw [copies_publish, if_pos ⟨routed.permitted, routed.direct⟩, count_routePublish, numbered]
  dsimp only
  rw [routed.found]
  dsimp only
  rw [show schemaFailure env { s with connState := conns } (args.targets env ex) args.body =
    schemaFailure env s (args.targets env ex) args.body from rfl, accepted]
  simp only [Option.isNone_none, true_and]
  rw [PublishArgs.targets, Exchange.count_routeEach]

theorem copies_unrouted (unrouted : ∀ ex, ¬ Routed env s connId args ex) :
    copies env s (.basicPublish connId channel args now) name = 0 := by
  obtain ⟨conns, numbered⟩ := s.numbered_connState connId channel
  rw [copies_publish]
  split
  · rename_i direct
    rw [count_routePublish, numbered]
    dsimp only
    cases found : s.exchanges.get? args.exchange with
    | none => rfl
    | some ex =>
      dsimp only
      refine if_neg ?_
      rintro ⟨accepted, -⟩
      exact unrouted ex ⟨direct.1, direct.2, found,
        accepted_iff.mp (Option.isNone_iff_eq_none.mp accepted)⟩
  · rfl

end

theorem direct_one_copy (env : Env) (auth : AuthBackend) (cluster : Option ClusterCoordinator)
    (ops : List Op) (checks : ∀ op ∈ ops, op.checksBindings = true) (connId : UInt64)
    (channel : UInt16) (args : PublishArgs) (now : Instant) :
    let s := reached env auth cluster ops
    (∀ ex, s.exchanges.get? args.exchange = some ex → ex.kind = .direct) →
    ∀ name, copies env s (.basicPublish connId channel args now) name ≤ 1 := by
  intro s direct name
  have distinct : s.Distinct := distinct_reached env auth cluster ops checks
  by_cases routes : ∃ ex, Routed env s connId args ex
  · obtain ⟨ex, routed⟩ := routes
    rw [copies_routed routed]
    split
    · exact (distinct args.exchange ex routed.found).direct (direct ex routed.found)
    · exact Nat.zero_le 1
  · rw [copies_unrouted (not_exists.mp routes)]
    exact Nat.zero_le 1

/-- No queue gets two copies exactly when no queue that exists has two bindings that send the
    message, or the message is not routed at all. -/
theorem publish_one_copy_iff (env : Env) (s : BrokerState) (connId : UInt64) (channel : UInt16)
    (args : PublishArgs) (now : Instant) :
    (∀ name, copies env s (.basicPublish connId channel args now) name ≤ 1) ↔
      ∀ ex, Routed env s connId args ex → ∀ name, s.queues.contains name = true →
        (ex.ways args.routingKey (resolvePublishHeaders env args.properties) name).length ≤ 1 := by
  constructor
  · intro once ex routed name present
    have here := once name
    rw [copies_routed routed, if_pos present] at here
    exact here
  · intro single name
    by_cases routes : ∃ ex, Routed env s connId args ex
    · obtain ⟨ex, routed⟩ := routes
      rw [copies_routed routed]
      split
      · rename_i present
        exact single ex routed name present
      · exact Nat.zero_le 1
    · rw [copies_unrouted (not_exists.mp routes)]
      exact Nat.zero_le 1

/-- The queue q is bound to the topic exchange with two patterns, and to the direct one twice with
    the same key, the second time by the management API. -/
def boundTwice : BrokerState := reached (plainEnv 64 1) guestOnly none (session "q" ++
  [.queueBind "q" "amq.topic" "a.*" false, .queueBind "q" "amq.topic" "*.b" false,
    .queueBind "q" "amq.direct" "k" false, .createBindingEq "amq.direct" "q" "k"])

theorem publish_two_copies :
    let topic : Op := .basicPublish 1 1 ⟨"amq.topic", "a.b", false, .default, [8]⟩ 0
    let direct : Op := .basicPublish 1 1 ⟨"amq.direct", "k", false, .default, [8]⟩ 0
    ¬ (∀ name, copies (plainEnv 64 1) boundTwice topic name ≤ 1) ∧
    ¬ (∀ name, copies (plainEnv 64 1) boundTwice direct name ≤ 1) ∧
    ((served (plainEnv 64 1) boundTwice topic).queues.get? "q").map (·.messages.len) = some 2 ∧
    ((served (plainEnv 64 1) boundTwice direct).queues.get? "q").map (·.messages.len) = some 2 := by
  intro topic direct
  have overlap : copies (plainEnv 64 1) boundTwice topic "q" = 2 := by decide +kernel
  have twin : copies (plainEnv 64 1) boundTwice direct "q" = 2 := by decide +kernel
  refine ⟨fun once => ?_, fun once => ?_, by decide +kernel, by decide +kernel⟩
  · exact absurd (once "q") (by rw [overlap]; decide)
  · exact absurd (once "q") (by rw [twin]; decide)

end RocketmqBroker
