import RocketmqBroker.Delivery.Consumers

/-!
Consumers that meet under one tag. A tag is chosen by the client, but a queue keeps its
consumers by their tags, and one index for the whole broker says which queue a tag
belongs to.
-/
namespace RocketmqBroker
open Run.Program

def BrokerState.HasConsumer (s : BrokerState) (queue : String) (c : Consumer) : Prop :=
  ∃ q, s.queues.get? queue = some q ∧
    q.consumerTags.get? c.tag = some (c.connId, c.channel, c.noAck)

def BrokerState.Receives (s : BrokerState) (queue : String) (c : Consumer) : Prop :=
  ∃ q, s.queues.get? queue = some q ∧ c ∈ q.activeConsumers

structure ConsumerKept (s t : BrokerState) (queue : String) (c : Consumer) : Prop where
  registered : t.HasConsumer queue c
  receiving : s.Receives queue c → t.Receives queue c
  indexed : s.consumerIndex.get? c.tag = some queue → t.consumerIndex.get? c.tag = some queue

/-- All consumers stay, but for those of this connection on this queue. -/
def SparesConsumers (s t : BrokerState) (connId : UInt64) (queue : String) : Prop :=
  ∀ name c, s.HasConsumer name c → (c.connId ≠ connId ∨ name ≠ queue) → ConsumerKept s t name c

namespace BrokerState

def hasConsumers (s : BrokerState) (queue : String) : Bool :=
  (s.queues.get? queue).any fun q => !q.consumerTags.keys.isEmpty

def acceptsConsumer (env : Env) (s : BrokerState) (connId : UInt64) (args : ConsumeArgs) : Bool :=
  checkPermission env s connId (·.read) args.queue &&
    !(args.exclusive && s.hasConsumers args.queue) &&
    ((validateConsumerSchema args : Act env (Option String)).result s).isNone &&
    s.queues.contains args.queue

/-- The tag of the new consumer is no other connection's on its queue, and the index does
    not have it for a consumer of another queue. -/
def TagIsFree (s : BrokerState) (connId : UInt64) (args : ConsumeArgs) : Prop :=
  let tag := s.consumerTagFor connId args
  (∀ q ∈ s.queues.get? args.queue, ∀ c ∈ q.consumerTags.get? tag, c.1 = connId) ∧
    ∀ name ∈ s.consumerIndex.get? tag, name ≠ args.queue →
      ∀ q ∈ s.queues.get? name, q.consumerTags.get? tag = none

def registries (s : BrokerState) : FinMap String QueueState × FinMap String String :=
  (s.queues, s.consumerIndex)

def consumed (s : BrokerState) (connId : UInt64) (channel : UInt16) (args : ConsumeArgs) :
    FinMap String QueueState × FinMap String String :=
  let tag := s.consumerTagFor connId args
  (s.queues.modify args.queue fun q => q.addConsumer connId channel tag args.noAck,
    s.consumerIndex.insert tag args.queue)

end BrokerState

section
variable {env : Env} {s : BrokerState} {allowed : BrokerState → Effect → Prop}

theorem registries_assignTag (env : Env) (s : BrokerState) (connId : UInt64)
    (args : ConsumeArgs) :
    ((basicConsume.assignTag connId args : Act env String).final s).registries =
      s.registries := by
  unfold basicConsume.assignTag
  split <;> rfl

theorem result_assignTag (connId : UInt64) (args : ConsumeArgs) :
    (basicConsume.assignTag connId args : Act env String).result s =
      s.consumerTagFor connId args := by
  unfold basicConsume.assignTag BrokerState.consumerTagFor
  split <;> rfl

theorem registries_basicConsume (env : Env) (s : BrokerState) (connId : UInt64)
    (channel : UInt16) (args : ConsumeArgs) :
    ((basicConsume connId channel args : Act env (List Frame)).final s).registries =
      if s.acceptsConsumer env connId args then s.consumed connId channel args
      else s.registries := by
  have leaves : Leaves (fun s : BrokerState => (s.registries, s.nextConsumerTag))
      (validateConsumerSchema args : Act env (Option String)) :=
    validateConsumerSchema_leaves (fun _ _ => rfl) args
  obtain ⟨same, next⟩ := Prod.mk.inj (leaves s)
  unfold basicConsume BrokerState.acceptsConsumer
  rw [final_bind, final_bind]
  change BrokerState.registries (final (if !checkPermission env s connId (·.read) args.queue
    then _ else if args.exclusive && s.hasConsumers args.queue then _ else _) s) = _
  split
  · rename_i refused
    rw [Bool.not_eq_true'] at refused
    rw [refused]
    rfl
  rename_i permitted
  rw [Bool.not_eq_true', Bool.not_eq_false] at permitted
  rw [permitted]
  split
  · rename_i busy
    rw [busy]
    rfl
  rename_i available
  rw [Bool.not_eq_true] at available
  rw [available, final_bind]
  cases (validateConsumerSchema args : Act env (Option String)).result s with
  | some text => exact same
  | none =>
    dsimp only
    generalize final (validateConsumerSchema args : Act env _) s = t at same next
    have queues : t.queues = s.queues := (Prod.mk.inj same).1
    rw [final_bind]
    change BrokerState.registries (final (if !t.queues.contains args.queue then _ else _) t) = _
    rw [queues]
    split
    · rename_i missing
      rw [Bool.not_eq_true'] at missing
      rw [missing]
      exact same
    · rename_i known
      rw [Bool.not_eq_true', Bool.not_eq_false] at known
      rw [known, final_bind, result_assignTag, final_bind, final_bind]
      have tag : t.consumerTagFor connId args = s.consumerTagFor connId args := by
        unfold BrokerState.consumerTagFor
        rw [next]
      have assigned := (registries_assignTag env t connId args).trans same
      generalize final (basicConsume.assignTag connId args : Act env _) t = u at assigned
      obtain ⟨queues, index⟩ := Prod.mk.inj assigned
      rw [tag]
      change (u.queues.modify args.queue _, u.consumerIndex.insert _ args.queue) = _
      rw [queues, index]
      rfl

variable {connId : UInt64} {channel : UInt16} {args : ConsumeArgs} {t : BrokerState}

theorem mem_snapshotConsumers {tags : FinMap String (UInt64 × UInt16 × Bool)} {c : Consumer} :
    c ∈ QueueState.snapshotConsumers tags ↔
      tags.get? c.tag = some (c.connId, c.channel, c.noAck) := by
  unfold QueueState.snapshotConsumers
  rw [List.mem_map, FinMap.get?_eq_some_iff_mem]
  constructor
  · rintro ⟨e, member, rfl⟩
    exact member
  · intro member
    exact ⟨_, member, rfl⟩

theorem kept_same_queue (registered : t.registries = s.consumed connId channel args)
    {c : Consumer} (old : s.HasConsumer args.queue c) (other : c.connId ≠ connId) :
    ConsumerKept s t args.queue c ↔ c.tag ≠ s.consumerTagFor connId args := by
  obtain ⟨queues, index⟩ := Prod.mk.inj registered
  obtain ⟨q, found, member⟩ := old
  have now : t.queues.get? args.queue = some (q.addConsumer connId channel
      (s.consumerTagFor connId args) args.noAck) := by
    rw [queues, FinMap.get?_modify, if_pos rfl, found]
    rfl
  constructor
  · intro kept same
    obtain ⟨q', there, entry⟩ := kept.registered
    obtain rfl := Option.some.inj (now.symm.trans there)
    change (q.consumerTags.insert _ _).get? c.tag = _ at entry
    rw [same, FinMap.get?_insert_self] at entry
    exact other (congrArg Prod.fst (Option.some.inj entry)).symm
  · intro apart
    have entry : (q.consumerTags.insert (s.consumerTagFor connId args)
        (connId, channel, args.noAck)).get? c.tag = some (c.connId, c.channel, c.noAck) := by
      rw [FinMap.get?_insert, if_neg apart]
      exact member
    refine ⟨⟨_, now, entry⟩, fun _ => ⟨_, now, mem_snapshotConsumers.mpr entry⟩, ?_⟩
    intro indexed
    rw [index, FinMap.get?_insert, if_neg apart]
    exact indexed

theorem kept_other_queue (registered : t.registries = s.consumed connId channel args)
    {name : String} {c : Consumer} (old : s.HasConsumer name c) (other : name ≠ args.queue) :
    ConsumerKept s t name c ↔ (c.tag = s.consumerTagFor connId args →
      s.consumerIndex.get? c.tag ≠ some name) := by
  obtain ⟨queues, index⟩ := Prod.mk.inj registered
  obtain ⟨q, found, member⟩ := old
  have now : t.queues.get? name = some q := by
    rw [queues, FinMap.get?_modify, if_neg other]
    exact found
  constructor
  · intro kept same indexed
    have still := kept.indexed indexed
    rw [index, same, FinMap.get?_insert_self] at still
    exact other (Option.some.inj still).symm
  · intro free
    refine ⟨⟨q, now, member⟩, ?_, fun indexed => ?_⟩
    · rintro ⟨q', there, listed⟩
      obtain rfl := Option.some.inj (found.symm.trans there)
      exact ⟨q, now, listed⟩
    · rw [index, FinMap.get?_insert, if_neg fun same => free same indexed]
      exact indexed

theorem spares_consumed (registered : t.registries = s.consumed connId channel args) :
    SparesConsumers s t connId args.queue ↔ s.TagIsFree connId args := by
  constructor
  · intro spares
    constructor
    · rintro q found ⟨c, ch, noAck⟩ member
      by_contra other
      have old : s.HasConsumer args.queue ⟨s.consumerTagFor connId args, c, ch, noAck⟩ :=
        ⟨q, found, member⟩
      exact (kept_same_queue registered old other).mp (spares _ _ old (.inl other)) rfl
    · intro name indexed other q found
      by_contra taken
      obtain ⟨⟨c, ch, noAck⟩, member⟩ := Option.ne_none_iff_exists'.mp taken
      have old : s.HasConsumer name ⟨s.consumerTagFor connId args, c, ch, noAck⟩ :=
        ⟨q, found, member⟩
      exact (kept_other_queue registered old other).mp (spares _ _ old (.inr other)) rfl indexed
  · rintro ⟨ours, unindexed⟩ name c old other
    obtain ⟨q, found, member⟩ := old
    by_cases here : name = args.queue
    · subst here
      have foreign : c.connId ≠ connId := other.resolve_right (not_not_intro rfl)
      refine (kept_same_queue registered ⟨q, found, member⟩ foreign).mpr fun same => foreign ?_
      exact ours q found _ (same ▸ member)
    · refine (kept_other_queue registered ⟨q, found, member⟩ here).mpr fun same indexed => ?_
      have free := unindexed name (same ▸ indexed) here q found
      rw [← same, member] at free
      cases free

theorem spares_refused (refused : t.registries = s.registries) (queue : String) :
    SparesConsumers s t connId queue := by
  obtain ⟨queues, index⟩ := Prod.mk.inj refused
  intro name c old _
  refine ⟨?_, ?_, ?_⟩
  · unfold BrokerState.HasConsumer
    rw [queues]
    exact old
  · unfold BrokerState.Receives
    rw [queues]
    exact id
  · rw [index]
    exact id

/-- Basic.Consume leaves the other consumers alone exactly when it is refused or its tag
    is free. -/
theorem basicConsume_spares (s : BrokerState) (connId : UInt64) (channel : UInt16)
    (args : ConsumeArgs) :
    SparesConsumers s (served env s (.basicConsume connId channel args)) connId args.queue ↔
      (s.acceptsConsumer env connId args = true → s.TagIsFree connId args) := by
  have outcome := registries_basicConsume env s connId channel args
  by_cases accepted : s.acceptsConsumer env connId args = true
  · rw [if_pos accepted] at outcome
    rw [imp_iff_right accepted]
    exact spares_consumed outcome
  · rw [if_neg accepted] at outcome
    exact iff_of_true (spares_refused outcome _) fun yes => absurd yes accepted

end

/-- Two clients choose the same tag on one queue: the first one is no consumer any more. -/
theorem same_tag_taken : ¬ ∀ (ops : List Op) (connId : UInt64) (channel : UInt16)
    (args : ConsumeArgs),
    let s := reached (plainEnv 64 1) guestOnly none ops
    SparesConsumers s (served (plainEnv 64 1) s (.basicConsume connId channel args)) connId
      args.queue := by
  intro spares
  let ops := oneConsumer ++ [.connect "127.0.0.1:50001" "guest" "/", .channelOpen 2 1]
  let s := reached (plainEnv 64 1) guestOnly none ops
  let args : ConsumeArgs := ⟨"q", "t", false, false, false, []⟩
  have before : (s.queues.get? "q").bind (fun q => q.consumerTags.get? "t") =
      some (1, 1, false) := by decide +kernel
  have after : ((served (plainEnv 64 1) s (.basicConsume 2 1 args)).queues.get? "q").bind
      (fun q => q.consumerTags.get? "t") = some (2, 1, false) := by decide +kernel
  have old : s.HasConsumer "q" ⟨"t", 1, 1, false⟩ := by
    obtain ⟨q, found, entry⟩ := Option.bind_eq_some_iff.mp before
    exact ⟨q, found, entry⟩
  obtain ⟨q, found, entry⟩ :=
    (spares ops 2 1 args "q" ⟨"t", 1, 1, false⟩ old (.inl (by decide))).registered
  rw [found, Option.bind_some, entry] at after
  cases after

end RocketmqBroker
