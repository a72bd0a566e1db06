import RocketmqBroker.Publishing.Receivers

/-!
When two ways into the queues come to the same. Ids and the time of the last activity may
differ; what else has to agree of two messages is up to the comparison. The ways differ in
what they make of a message, and they do not on a queue that makes nothing of it.
-/
namespace RocketmqBroker
open Run.Program

inductive QueueMessage.Like (R : Message → Message → Prop) : QueueMessage → QueueMessage → Prop
  | ref (r : MessageRef) (id : UInt64) : Like R (.ref r) (.ref { r with id })
  | full {m m' : Message} : R m m' → Like R (.full m) (.full m')

theorem QueueMessage.Like.refl {R : Message → Message → Prop} (same : ∀ m, R m m) :
    ∀ qm, Like R qm qm
  | .ref r => .ref r r.id
  | .full m => .full (same m)

namespace QueueState

def SameSetup (q q' : QueueState) : Prop :=
  { q with messages := q'.messages, lastActivity := q'.lastActivity } = q'

structure Alike (R : Message → Message → Prop) (q q' : QueueState) : Prop where
  ready : List.Forall₂ (QueueMessage.Like R) q.messages.ready q'.messages.ready
  setup : q.SameSetup q'

/-- The queue takes the message as it comes: at the end, with nothing added to it. -/
structure Plain (ctx : EnqueueCtx) (q : QueueState) : Prop where
  timeless : resolveTtl q.options.messageTtl ctx.perMsgTtl 0 = none
  lowest : capPriority ctx.priority q.options.maxPriority = 0
  unlogged : q.persists ctx = false
  room : ∀ maxLen ∈ q.options.maxLength, q.messages.len < maxLen ∨ q.messages.len = 0

instance (ctx : EnqueueCtx) (q : QueueState) : Decidable (q.Plain ctx) :=
  decidable_of_iff (resolveTtl q.options.messageTtl ctx.perMsgTtl 0 = none ∧
      capPriority ctx.priority q.options.maxPriority = 0 ∧ q.persists ctx = false ∧
      ∀ maxLen ∈ q.options.maxLength, q.messages.len < maxLen ∨ q.messages.len = 0)
    ⟨fun h => ⟨h.1, h.2.1, h.2.2.1, h.2.2.2⟩,
      fun h => ⟨h.timeless, h.lowest, h.unlogged, h.room⟩⟩

section
variable {q q' q'' : QueueState} {R : Message → Message → Prop}

theorem SameSetup.refl (q : QueueState) : q.SameSetup q := rfl

theorem SameSetup.trans (first : q.SameSetup q') (second : q'.SameSetup q'') :
    q.SameSetup q'' := by
  have both := congrArg (fun p : QueueState =>
    { p with messages := q''.messages, lastActivity := q''.lastActivity }) first
  exact both.trans second

theorem SameSetup.options (same : q.SameSetup q') : q'.options = q.options :=
  (congrArg QueueState.options same).symm

theorem SameSetup.schema (same : q.SameSetup q') : q'.schema = q.schema :=
  (congrArg QueueState.schema same).symm

theorem Alike.refl (same : ∀ m, R m m) (q : QueueState) : q.Alike R q :=
  ⟨List.forall₂_same.mpr fun qm _ => QueueMessage.Like.refl same qm, .refl q⟩

theorem Alike.len (alike : q.Alike R q') : q'.messages.len = q.messages.len := by
  rw [PriorityQueue.len_eq_card, PriorityQueue.len_eq_card, PriorityQueue.contents_eq_ready,
    PriorityQueue.contents_eq_ready, Multiset.coe_card, Multiset.coe_card]
  exact alike.ready.length_eq.symm

variable {env : Env} {wal : SegmentCoordinator} {queue : String} {msgId : UInt64}
  {ctx : EnqueueCtx} {now : Instant}

theorem setup_accept : q.SameSetup (q.accept env wal queue msgId ctx now) := by
  have room := congrArg (fun p : QueueState => { p with
    messages := (q.accept env wal queue msgId ctx now).messages
    lastActivity := now }) (makeRoom_messages (q := q))
  exact room.symm

theorem Accepts.setup {k : Nat} (accepts : Accepts env queue ctx now k q q') :
    q.SameSetup q' := by
  induction accepts with
  | done q => exact .refl q
  | next wal msgId _ ih => exact setup_accept.trans ih

theorem makeRoom_of_room
    (room : ∀ maxLen ∈ q.options.maxLength, q.messages.len < maxLen ∨ q.messages.len = 0) :
    q.makeRoom = q := by
  unfold makeRoom
  cases limit : q.options.maxLength with
  | none => rfl
  | some maxLen =>
    dsimp only
    cases q.messages.len with
    | zero => rfl
    | succ fuel =>
      unfold evict
      refine if_neg ?_
      rw [Bool.and_eq_true, decide_eq_true_iff, Bool.not_eq_true', PriorityQueue.isEmpty]
      rintro ⟨full, some_left⟩
      cases room maxLen limit with
      | inl less => exact Nat.not_le.mpr less full
      | inr none_left => simp [PriorityQueue.len] at none_left some_left; exact some_left none_left

theorem accept_plain (plain : q.Plain ctx) : q.accept env wal queue msgId ctx now =
    { q.pushBack (.full (.newRouted msgId ctx.propBytes ctx.bodyBytes ctx.exchange
      ctx.routingKey)) with lastActivity := now } := by
  have unlogged : persistIfDurable env wal q queue msgId ctx = none :=
    persistIfDurable_eq_none.mpr plain.unlogged
  have timeless : resolveTtl q.options.messageTtl ctx.perMsgTtl now = none := by
    have there := plain.timeless
    revert there
    cases q.options.messageTtl <;> cases ctx.perMsgTtl <;> simp [resolveTtl]
  unfold accept entry
  rw [makeRoom_of_room plain.room, plain.lowest, timeless, unlogged]
  rfl

theorem Alike.pushed {m m' : Message} (alike : q.Alike R q') (same : R m m')
    (lowest : m.priority = 0) (lowest' : m'.priority = 0) :
    (q.pushBack (.full m)).Alike R { q'.pushBack (.full m') with lastActivity := now } := by
  constructor
  · have ready : (q.pushBack (.full m)).messages.ready = q.messages.ready ++ [.full m] :=
      PriorityQueue.ready_pushBack lowest
    have ready' : (q'.pushBack (.full m')).messages.ready = q'.messages.ready ++ [.full m'] :=
      PriorityQueue.ready_pushBack lowest'
    rw [ready]
    change List.Forall₂ _ _ (q'.pushBack (.full m')).messages.ready
    rw [ready']
    exact List.rel_append alike.ready (.cons (.full same) .nil)
  · have both := congrArg (fun p : QueueState => { p with
      messages := (q'.pushBack (.full m')).messages
      lastActivity := now }) alike.setup
    exact both

end

end QueueState

structure BrokerState.Alike (R : Message → Message → Prop) (t u : BrokerState) : Prop where
  queues : ∀ name, Option.Rel (QueueState.Alike R) (t.queues.get? name) (u.queues.get? name)
  wal : t.wal = u.wal

theorem BrokerState.Alike.missing {R : Message → Message → Prop} {t u : BrokerState} {name : String}
    (alike : t.Alike R u) (missing : u.queues.get? name = none) : t.queues.get? name = none := by
  have same := alike.queues name
  rw [missing] at same
  cases there : t.queues.get? name with
  | none => rfl
  | some q =>
    rw [there] at same
    cases same

theorem BrokerState.Alike.found {R : Message → Message → Prop} {t u : BrokerState} {name : String}
    {q' : QueueState} (alike : t.Alike R u) (found : u.queues.get? name = some q') :
    ∃ q, t.queues.get? name = some q ∧ q.Alike R q' := by
  have same := alike.queues name
  rw [found] at same
  cases there : t.queues.get? name with
  | none =>
    rw [there] at same
    cases same
  | some q =>
    rw [there] at same
    cases same with
    | some same => exact ⟨q, rfl, same⟩

theorem BrokerState.Alike.congr {R : Message → Message → Prop} {t t' u : BrokerState}
    (queues : ∀ name, t.queues.get? name = t'.queues.get? name) (wal : t.wal = t'.wal) :
    t.Alike R u ↔ t'.Alike R u := by
  constructor
  · rintro ⟨each, log⟩
    exact ⟨fun name => queues name ▸ each name, wal ▸ log⟩
  · rintro ⟨each, log⟩
    exact ⟨fun name => (queues name).symm ▸ each name, wal.trans log⟩

theorem BrokerState.Alike.refl {R : Message → Message → Prop} (same : ∀ m, R m m)
    (s : BrokerState) : s.Alike R s := by
  refine ⟨fun name => ?_, rfl⟩
  cases s.queues.get? name with
  | none => exact .none
  | some q => exact .some (.refl same q)

end RocketmqBroker
