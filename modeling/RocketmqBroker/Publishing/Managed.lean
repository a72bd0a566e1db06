import RocketmqBroker.Management.Routes
import RocketmqBroker.Protocol.PropertyWriter
import RocketmqBroker.Publishing.Alike
import RocketmqBroker.Queue.MaxLength

/-!
The management interface as a publisher, against Basic.Publish. Both route alike; but the
management interface pushes the message as it is, whatever the queue says, without the
properties that were asked for and under the name of the exchange as it stands in the path.
-/
namespace RocketmqBroker
open Run.Program BigEndian ByteReader

/-- The same message as a client has it, but for the id. -/
def Message.SameReading (m m' : Message) : Prop :=
  { m with id := m'.id, headers := m'.headers } = m' ∧ m.properties = m'.properties

theorem Message.SameReading.refl (m : Message) : m.SameReading m := ⟨rfl, rfl⟩

structure PublishProperties where
  deliveryMode : Option UInt8
  contentType : Option String

structure PublishRequest where
  routingKey : String
  payload : Bytes
  properties : PublishProperties

def PublishRequest.args (exchange : String) (req : PublishRequest) : PublishArgs :=
  ⟨resolveExchangeName exchange, req.routingKey, false,
    { BasicProperties.default with
      deliveryMode := req.properties.deliveryMode
      contentType := req.properties.contentType }, req.payload⟩

namespace QueueState

def RoomFor (k : Nat) (q : QueueState) : Prop :=
  ∀ maxLen ∈ q.options.maxLength, ∀ i < k, q.messages.len + i < maxLen ∨ q.messages.len + i = 0

instance (k : Nat) (q : QueueState) : Decidable (q.RoomFor k) :=
  inferInstanceAs (Decidable (∀ maxLen ∈ q.options.maxLength, ∀ i < k,
    q.messages.len + i < maxLen ∨ q.messages.len + i = 0))

def pushMany (m : Message) (k : Nat) (q : QueueState) : QueueState := (·.pushBack (.full m))^[k] q

variable {q q' : QueueState} {env : Env} {wal : SegmentCoordinator} {queue : String}
  {msgId : UInt64} {ctx : EnqueueCtx} {now : Instant}

theorem len_dropOldest : q.dropOldest.messages.len ≤ q.messages.len ∧
    (q.messages.len ≠ 0 → q.dropOldest.messages.len < q.messages.len) := by
  unfold dropOldest
  split
  · rename_i none_left
    have empty : q.messages.len = 0 := by
      rw [PriorityQueue.len_eq_card, PriorityQueue.popOldest_none none_left, Multiset.card_zero]
    exact ⟨Nat.le_refl _, fun some_left => absurd empty some_left⟩
  · rename_i m rest popped
    have one := PriorityQueue.len_popOldest popped
    change rest.len ≤ q.messages.len ∧ (_ → rest.len < q.messages.len)
    omega

theorem len_evict (maxLen fuel : Nat) : (q.evict maxLen fuel).messages.len ≤ q.messages.len := by
  induction fuel generalizing q with
  | zero => exact Nat.le_refl _
  | succ fuel ih =>
    unfold evict
    split
    · exact ih.trans len_dropOldest.1
    · exact Nat.le_refl _

theorem len_makeRoom : q.makeRoom.messages.len ≤ q.messages.len := by
  unfold makeRoom
  split
  · exact Nat.le_refl _
  · exact len_evict _ _

theorem room_of_len_makeRoom (same : q.makeRoom.messages.len = q.messages.len) :
    ∀ maxLen ∈ q.options.maxLength, q.messages.len < maxLen ∨ q.messages.len = 0 := by
  intro maxLen limit
  unfold makeRoom at same
  rw [show q.options.maxLength = some maxLen from limit] at same
  dsimp only at same
  cases length : q.messages.len with
  | zero => exact .inr rfl
  | succ fuel =>
    rw [length, evict] at same
    split at same
    · have less := (len_dropOldest (q := q)).2 (by omega)
      have rest := len_evict (q := q.dropOldest) maxLen fuel
      omega
    · rename_i roomy
      rw [Bool.and_eq_true, decide_eq_true_iff, Bool.not_eq_true', PriorityQueue.isEmpty] at roomy
      left
      by_contra full
      refine roomy ⟨by omega, ?_⟩
      simp [PriorityQueue.len] at length
      simp [length]

theorem len_accept : (q.accept env wal queue msgId ctx now).messages.len =
    q.makeRoom.messages.len + 1 := rfl

theorem Accepts.len {k : Nat} (accepts : Accepts env queue ctx now k q q') :
    q'.messages.len ≤ q.messages.len + k := by
  induction accepts with
  | done q => exact Nat.le_refl _
  | next wal msgId rest ih =>
    rename_i k q q'
    have made := len_makeRoom (q := q)
    rw [len_accept] at ih
    omega

theorem Accepts.room {k : Nat} (accepts : Accepts env queue ctx now k q q')
    (grown : q'.messages.len = q.messages.len + k) : q.RoomFor k := by
  induction accepts with
  | done q => exact fun _ _ i less => absurd less (Nat.not_lt_zero i)
  | next wal msgId rest ih =>
    rename_i k q q'
    have made := len_makeRoom (q := q)
    have more := rest.len
    rw [len_accept] at more ih
    have same : q.makeRoom.messages.len = q.messages.len := by omega
    have room := room_of_len_makeRoom same
    have later := ih (by omega)
    intro maxLen limit i less
    cases i with
    | zero => exact room maxLen limit
    | succ i =>
      have next := later maxLen (by rw [accept_options]; exact limit) i (by omega)
      rw [len_accept] at next
      omega

theorem Accepts.ready {k : Nat} (accepts : Accepts env queue ctx now k q q') (room : q.RoomFor k)
    (lowest : capPriority ctx.priority q.options.maxPriority = 0) :
    ∃ entries : List QueueMessage, q'.messages.ready = q.messages.ready ++ entries ∧
      entries.length = k ∧
      ∀ e ∈ entries, ∃ wal msgId, e = q.entry env wal queue msgId ctx now := by
  induction accepts with
  | done q => exact ⟨[], (List.append_nil _).symm, rfl, nofun⟩
  | next wal msgId rest ih =>
    rename_i k q q'
    have here : q.makeRoom = q := makeRoom_of_room fun maxLen limit =>
      room maxLen limit 0 (Nat.succ_pos k)
    have added : (q.accept env wal queue msgId ctx now).messages.ready =
        q.messages.ready ++ [q.entry env wal queue msgId ctx now] := by
      have zero : (q.entry env wal queue msgId ctx now).priority = 0 := by
        unfold entry buildQueueMessage
        rw [lowest]
        split <;> rfl
      unfold accept
      rw [here]
      exact PriorityQueue.ready_pushBack zero
    have later : (q.accept env wal queue msgId ctx now).RoomFor k := by
      intro maxLen limit i less
      rw [accept_options] at limit
      have next := room maxLen limit (i + 1) (Nat.succ_lt_succ less)
      rw [len_accept, here]
      omega
    obtain ⟨entries, ready, length, each⟩ := ih later (by rw [accept_options]; exact lowest)
    refine ⟨q.entry env wal queue msgId ctx now :: entries, ?_, ?_, ?_⟩
    · rw [ready, added, List.append_assoc, List.singleton_append]
    · rw [List.length_cons, length]
    · intro e member
      cases List.mem_cons.mp member with
      | inl first => exact ⟨wal, msgId, first⟩
      | inr tail =>
        obtain ⟨wal', msgId', same⟩ := each e tail
        exact ⟨wal', msgId', same.trans (entry_congr accept_options)⟩

theorem pushMany_succ (m : Message) (k : Nat) :
    q.pushMany m (k + 1) = (q.pushMany m k).pushBack (.full m) :=
  Function.iterate_succ_apply' _ k q

theorem ready_pushMany {m : Message} (lowest : m.priority = 0) (k : Nat) :
    (q.pushMany m k).messages.ready = q.messages.ready ++ List.replicate k (.full m) := by
  induction k with
  | zero => exact (List.append_nil _).symm
  | succ k ih =>
    have added : ((q.pushMany m k).pushBack (.full m)).messages.ready =
        (q.pushMany m k).messages.ready ++ [.full m] := PriorityQueue.ready_pushBack lowest
    rw [pushMany_succ, added, ih, List.append_assoc, List.replicate_succ']

theorem setup_pushMany (m : Message) (k : Nat) : (q.pushMany m k).SameSetup q := by
  induction k with
  | zero => rfl
  | succ k ih =>
    rw [pushMany_succ]
    exact ih

theorem len_pushMany (m : Message) (k : Nat) :
    (q.pushMany m k).messages.len = q.messages.len + k := by
  induction k with
  | zero => rfl
  | succ k ih =>
    have one : ((q.pushMany m k).pushBack (.full m)).messages.len =
        (q.pushMany m k).messages.len + 1 := rfl
    rw [pushMany_succ, one, ih, Nat.add_assoc]

/-- What the queue makes of the message in memory. -/
def fresh (ctx : EnqueueCtx) (now : Instant) (q : QueueState) : Message :=
  ⟨0, ctx.propBytes, ctx.bodyBytes, capPriority ctx.priority q.options.maxPriority,
    resolveTtl q.options.messageTtl ctx.perMsgTtl now, false, 0, ctx.exchange, ctx.routingKey⟩

theorem like_entry_iff {m : Message} : (QueueMessage.full m).Like Message.SameReading
    (q.entry env wal queue msgId ctx now) ↔
      q.persists ctx = false ∧ m.SameReading (q.fresh ctx now) := by
  unfold entry buildQueueMessage
  rw [← @persistIfDurable_eq_none q env wal queue msgId ctx]
  cases persistIfDurable env wal q queue msgId ctx with
  | some place =>
    refine iff_of_false ?_ (fun both => nomatch both.1)
    intro like
    cases like
  | none =>
    constructor
    · intro like
      cases like with
      | full same => exact ⟨rfl, congrArg (fun p : Message => { p with id := 0 }) same.1, same.2⟩
    · rintro ⟨-, same⟩
      exact .full ⟨congrArg (fun p : Message => { p with id := msgId }) same.1, same.2⟩

theorem forall₂_replicate {α β : Type} {R : α → β → Prop} {a : α} {bs : List β}
    (each : ∀ b ∈ bs, R a b) : List.Forall₂ R (List.replicate bs.length a) bs := by
  induction bs with
  | nil => exact .nil
  | cons b bs ih =>
    exact .cons (each b List.mem_cons_self)
      (ih fun other member => each other (List.mem_cons_of_mem _ member))

/-- The same message so many times, one way and the other. -/
theorem pushMany_alike_iff {m : Message} (lowest : m.priority = 0)
    (no_priority : capPriority ctx.priority q.options.maxPriority = 0) {c k : Nat} (fewer : k ≤ c)
    (accepts : Accepts env queue ctx now k q q') :
    (q.pushMany m c).Alike Message.SameReading q' ↔ k = c ∧ q.RoomFor c ∧
      (c = 0 ∨ q.persists ctx = false ∧ m.SameReading (q.fresh ctx now)) := by
  constructor
  · intro alike
    have lengths := alike.len
    have most := accepts.len
    rw [len_pushMany] at lengths
    obtain rfl : k = c := by omega
    have room := accepts.room lengths
    refine ⟨rfl, room, ?_⟩
    obtain ⟨entries, ready, length, each⟩ := accepts.ready room no_priority
    cases entries with
    | nil => exact .inl length.symm
    | cons e entries =>
      right
      have behind := List.forall₂_drop q.messages.ready.length alike.ready
      rw [ready_pushMany lowest, ready, List.drop_left, List.drop_left, ← length,
        List.length_cons, List.replicate_succ] at behind
      obtain ⟨wal, msgId, rfl⟩ := each e List.mem_cons_self
      exact like_entry_iff.mp (List.forall₂_cons.mp behind).1
  · rintro ⟨rfl, room, same⟩
    obtain ⟨entries, ready, length, each⟩ := accepts.ready room no_priority
    refine ⟨?_, (setup_pushMany m k).trans accepts.setup⟩
    rw [ready_pushMany lowest, ready]
    refine List.rel_append (List.forall₂_same.mpr fun qm _ =>
      QueueMessage.Like.refl Message.SameReading.refl qm) ?_
    rw [← length]
    refine forall₂_replicate fun e member => ?_
    obtain ⟨wal, msgId, rfl⟩ := each e member
    cases same with
    | inl none =>
      rw [none, List.length_eq_zero_iff] at length
      rw [length] at member
      cases member
    | inr same => exact like_entry_iff.mpr same

end QueueState

/-- Where a message is routed to, whether or not the queues exist. -/
def PublishRequest.targets (s : BrokerState) (exchange : String) (req : PublishRequest) :
    List String :=
  match s.exchanges.get? (resolveExchangeName exchange) with
  | none => []
  | some ex => ex.routeEach req.routingKey []

/-- Properties that leave nothing to read: there are none, or writing them stops at once. -/
def PublishProperties.Bare (p : PublishProperties) : Prop :=
  p.contentType = none ∧ p.deliveryMode = none ∨
    ∃ text, p.contentType = some text ∧ 255 < (strBytes text).length

/-- Basic.Publish makes no more of the message than the management interface. -/
structure PublishRequest.Plain (env : Env) (s : BrokerState) (exchange : String)
    (req : PublishRequest) : Prop where
  schemas : schemaFailure env s (req.targets s exchange) req.payload = none
  named : resolveExchangeName exchange = exchange
  bare : req.properties.Bare
  queues : ∀ queue ∈ req.targets s exchange, ∀ q ∈ s.queues.get? queue,
    q.options.messageTtl = none ∧
      (q.options.durable && req.properties.deliveryMode == some 2) = false ∧
      q.RoomFor ((req.targets s exchange).count queue)

section
variable {env : Env} {s : BrokerState} {exchange : String} {req : PublishRequest} {now : Instant}

def PublishRequest.message (exchange : String) (req : PublishRequest) (msgId : UInt64) : Message :=
  .newRouted msgId [] req.payload exchange req.routingKey

theorem get?_pushFull (queue name : String) (m : Message) :
    (exec env s (.pushFull queue m)).queues.get? name =
      if name = queue then (s.queues.get? name).map (·.pushBack (.full m))
      else s.queues.get? name := by
  rw [(exec_memory env s _).1]
  exact get?_modifyQueue s queue name _

theorem pushFulls (m : Message) (targets : List String) (name : String) :
    ((targets.forM (fun queue => perform (.pushFull queue m)) : Act env PUnit).final
      s).queues.get? name =
      (s.queues.get? name).map fun q => q.pushMany m (targets.count name) := by
  induction targets generalizing s with
  | nil => exact Option.map_id'.symm
  | cons queue targets ih =>
    change ((perform (.pushFull queue m) >>= fun _ => targets.forM fun queue =>
      perform (.pushFull queue m) : Act env PUnit).final s).queues.get? name = _
    rw [final_bind, ih]
    change Option.map _ ((exec env s (.pushFull queue m)).queues.get? name) = _
    rw [get?_pushFull]
    by_cases same : name = queue
    · rw [if_pos same, same, List.count_cons_self, Option.map_map]
      rfl
    · rw [if_neg same, List.count_cons_of_ne (Ne.symm same)]

theorem publishMessage_final :
    ((publishMessage exchange req.routingKey req.payload : Act env (List Frame)).final s) =
      ((req.targets s exchange).forM (fun queue => perform (.pushFull queue
        (req.message exchange s.nextMsgId))) : Act env PUnit).final (exec env s .alloc) := by
  unfold publishMessage PublishRequest.targets
  rw [final_bind, final_bind, final_bind]
  change final (match s.exchanges.get? (resolveExchangeName exchange) with
    | none => _
    | some ex => _) (exec env s .alloc) = _
  cases s.exchanges.get? (resolveExchangeName exchange) with
  | none => rfl
  | some ex => exact final_bind _ _ _

theorem publishMessage_pushes (name : String) :
    ((publishMessage exchange req.routingKey req.payload : Act env (List Frame)).final
      s).queues.get? name = (s.queues.get? name).map fun q =>
        q.pushMany (req.message exchange s.nextMsgId) ((req.targets s exchange).count name) := by
  rw [publishMessage_final, pushFulls]
  rfl

theorem wal_publishMessage :
    ((publishMessage exchange req.routingKey req.payload : Act env (List Frame)).final s).wal =
      s.wal := by
  rw [publishMessage_final]
  have turns : Takes (fun e => ∃ queue m, Effect.pushFull queue m = e)
      ((req.targets s exchange).forM (fun queue => perform (.pushFull queue
        (req.message exchange s.nextMsgId))) : Act env PUnit) :=
    Takes.forM _ fun queue => takes_perform ⟨queue, _, rfl⟩
  have start : (exec env s .alloc).wal = s.wal := rfl
  refine turns.keeps (P := fun t => t.wal = s.wal) (fun t e kind before => ?_) start
  obtain ⟨queue, m, rfl⟩ := kind
  exact before

theorem receivers_args : (req.args exchange).receivers env s =
    if (schemaFailure env s (req.targets s exchange) req.payload).isSome then []
    else (req.targets s exchange).filter (s.queues.contains ·) := by
  unfold PublishArgs.receivers PublishRequest.targets
  change (match s.exchanges.get? (resolveExchangeName exchange) with
    | none => _
    | some ex => _) = _
  cases s.exchanges.get? (resolveExchangeName exchange) with
  | none => exact (ite_self []).symm
  | some ex => rfl

theorem bare_iff : (BasicProperties.decode (req.args exchange).properties.encode).elim .default
    Prod.fst = .default ↔ req.properties.Bare := by
  have whole (short : ∀ text ∈ req.properties.contentType, (strBytes text).length ≤ 255) :
      (BasicProperties.decode (req.args exchange).properties.encode).elim .default Prod.fst =
        (req.args exchange).properties := by
    have writable : (req.args exchange).properties.Writable := by
      refine ⟨?_, nofun⟩
      intro text member s here
      cases List.mem_cons.mp member with
      | inl first =>
        rw [first] at here
        exact short s here
      | inr others =>
        have absent : text = none := by
          simpa [PublishRequest.args, BasicProperties.default] using others
        rw [absent] at here
        cases here
    have decoded := BasicProperties.decode_write writable []
    rw [List.append_nil] at decoded
    rw [BasicProperties.encode, decoded]
    rfl
  have none_iff : (req.args exchange).properties = .default ↔
      req.properties.contentType = none ∧ req.properties.deliveryMode = none := by
    simp [PublishRequest.args, BasicProperties.default]
  unfold PublishProperties.Bare
  by_cases long : ∃ text, req.properties.contentType = some text ∧ 255 < (strBytes text).length
  · obtain ⟨text, here, more⟩ := long
    have unread : BasicProperties.decode (req.args exchange).properties.encode = none :=
      BasicProperties.decode_long here more
    rw [unread]
    exact iff_of_true rfl (.inr ⟨text, here, more⟩)
  · rw [whole, none_iff, or_iff_left long]
    intro text here
    by_contra more
    exact long ⟨text, here, Nat.not_le.mp more⟩

theorem properties_decoded (m : Message) :
    m.properties = (BasicProperties.decode m.headers).elim .default Prod.fst := by
  unfold Message.properties
  split
  · rename_i none_left
    rw [List.isEmpty_iff.mp none_left]
    rfl
  · cases BasicProperties.decode m.headers <;> rfl

theorem capPriority_zero (maxPriority : UInt8) : capPriority 0 maxPriority = 0 := by
  unfold capPriority
  split
  · exact if_pos (UInt8.le_iff_toNat_le.mpr (Nat.zero_le _))
  · rfl

/-- The message in memory, as both ways make it. -/
theorem sameReading_iff (q : QueueState) (msgId : UInt64) :
    (req.message exchange msgId).SameReading (q.fresh (req.args exchange).ctx now) ↔
      q.options.messageTtl = none ∧ resolveExchangeName exchange = exchange ∧
        req.properties.Bare := by
  have expires : resolveTtl q.options.messageTtl none now = none ↔
      q.options.messageTtl = none := by
    cases q.options.messageTtl <;> simp [resolveTtl]
  have fields : { req.message exchange msgId with
      id := (q.fresh (req.args exchange).ctx now).id
      headers := (q.fresh (req.args exchange).ctx now).headers } =
        q.fresh (req.args exchange).ctx now ↔
      q.options.messageTtl = none ∧ resolveExchangeName exchange = exchange := by
    have priority : capPriority (req.args exchange).ctx.priority q.options.maxPriority = 0 :=
      capPriority_zero _
    unfold QueueState.fresh
    rw [priority]
    unfold PublishRequest.message Message.newRouted
    rw [Message.mk.injEq]
    change (_ ∧ _ ∧ _ ∧ _ ∧ none = resolveTtl q.options.messageTtl none now ∧ _ ∧ _ ∧
      exchange = resolveExchangeName exchange ∧ _) ↔ _
    rw [← expires]
    constructor
    · rintro ⟨-, -, -, -, timeless, -, -, named, -⟩
      exact ⟨timeless.symm, named.symm⟩
    · rintro ⟨timeless, named⟩
      exact ⟨rfl, rfl, rfl, rfl, timeless.symm, rfl, rfl, named.symm, rfl⟩
  have properties : (req.message exchange msgId).properties =
      (q.fresh (req.args exchange).ctx now).properties ↔ req.properties.Bare := by
    rw [← @bare_iff exchange req, properties_decoded (q.fresh _ _)]
    exact eq_comm
  unfold Message.SameReading
  rw [fields, properties, and_assoc]

/-- What AMQP adds nothing to, in one queue. -/
structure PublishRequest.PlainIn (env : Env) (s : BrokerState) (exchange : String)
    (req : PublishRequest) (name : String) (q : QueueState) : Prop where
  schemas : schemaFailure env s (req.targets s exchange) req.payload = none
  named : resolveExchangeName exchange = exchange
  bare : req.properties.Bare
  timeless : q.options.messageTtl = none
  unlogged : (q.options.durable && req.properties.deliveryMode == some 2) = false
  room : q.RoomFor ((req.targets s exchange).count name)

theorem managed_queue_iff {name : String} {q q' : QueueState} {msgId : UInt64}
    (found : s.queues.get? name = some q)
    (accepts : QueueState.Accepts env name (req.args exchange).ctx now
      (((req.args exchange).receivers env s).count name) q q') :
    (q.pushMany (req.message exchange msgId) ((req.targets s exchange).count name)).Alike
        Message.SameReading q' ↔
      (name ∈ req.targets s exchange → req.PlainIn env s exchange name q) := by
  have present : s.queues.contains name = true := Option.isSome_iff_exists.mpr ⟨q, found⟩
  have counts : ((req.args exchange).receivers env s).count name =
      if (schemaFailure env s (req.targets s exchange) req.payload).isSome then 0
      else (req.targets s exchange).count name := by
    rw [receivers_args]
    split
    · rfl
    · exact List.count_filter present
  have fewer : ((req.args exchange).receivers env s).count name ≤
      (req.targets s exchange).count name := by
    rw [counts]
    split
    · exact Nat.zero_le _
    · exact Nat.le_refl _
  rw [QueueState.pushMany_alike_iff rfl (capPriority_zero _) fewer accepts, sameReading_iff, counts]
  constructor
  · rintro ⟨all, room, plain⟩ member
    have some_left : (req.targets s exchange).count name ≠ 0 :=
      Nat.pos_iff_ne_zero.mp (List.count_pos_iff.mpr member)
    obtain ⟨unlogged, timeless, named, bare⟩ := plain.resolve_left some_left
    refine ⟨?_, named, bare, timeless, unlogged, room⟩
    split at all
    · exact absurd all.symm some_left
    · rename_i accepted
      exact Option.not_isSome_iff_eq_none.mp accepted
  · intro plain
    by_cases member : name ∈ req.targets s exchange
    · obtain ⟨schemas, named, bare, timeless, unlogged, room⟩ := plain member
      rw [schemas, if_neg (by simp)]
      exact ⟨rfl, room, .inr ⟨unlogged, timeless, named, bare⟩⟩
    · rw [List.count_eq_zero.mpr member, ite_self]
      exact ⟨rfl, fun _ _ i less => absurd less (Nat.not_lt_zero i), .inl rfl⟩

theorem managed_queues_iff (now : Instant) (tag : Option UInt64) (name : String) :
    Option.Rel (QueueState.Alike Message.SameReading)
      (((publishMessage exchange req.routingKey req.payload : Act env (List Frame)).final
        s).queues.get? name)
      (((routePublish (req.args exchange) now tag : Act env (List Frame)).final
        s).queues.get? name) ↔
      ∀ q ∈ s.queues.get? name, name ∈ req.targets s exchange →
        req.PlainIn env s exchange name q := by
  rw [publishMessage_pushes]
  cases found : s.queues.get? name with
  | none =>
    rw [routePublish_missing found]
    exact iff_of_true .none fun q none_left => absurd none_left (Option.not_mem_none q)
  | some q =>
    obtain ⟨q', there, accepts⟩ :=
      @routePublish_accepts env s now (req.args exchange) tag name q found
    rw [there, Option.map_some, Option.rel_some_some, managed_queue_iff found accepts]
    constructor
    · intro plain q'' same
      obtain rfl := Option.some.inj same
      exact plain
    · exact fun plain => plain q rfl

theorem managed_like_route_iff (now : Instant) (tag : Option UInt64) :
    ((publishMessage exchange req.routingKey req.payload : Act env (List Frame)).final s).Alike
        Message.SameReading
        ((routePublish (req.args exchange) now tag : Act env (List Frame)).final s) ↔
      (∀ queue ∈ req.targets s exchange, s.queues.get? queue = none) ∨
        req.Plain env s exchange := by
  constructor
  · intro alike
    have each := fun name => (managed_queues_iff now tag name).mp (alike.queues name)
    by_cases missing : ∀ queue ∈ req.targets s exchange, s.queues.get? queue = none
    · exact .inl missing
    · right
      push Not at missing
      obtain ⟨queue, member, present⟩ := missing
      obtain ⟨q, found⟩ := Option.ne_none_iff_exists'.mp present
      have plain := each queue q found member
      refine ⟨plain.schemas, plain.named, plain.bare, ?_⟩
      intro queue' member' q' found'
      have plain' := each queue' q' found' member'
      exact ⟨plain'.timeless, plain'.unlogged, plain'.room⟩
  · intro condition
    have each : ∀ name, ∀ q ∈ s.queues.get? name, name ∈ req.targets s exchange →
        req.PlainIn env s exchange name q := by
      intro name q found member
      cases condition with
      | inl missing =>
        rw [missing name member] at found
        cases found
      | inr plain =>
        obtain ⟨timeless, unlogged, room⟩ := plain.queues name member q found
        exact ⟨plain.schemas, plain.named, plain.bare, timeless, unlogged, room⟩
    refine ⟨fun name => (managed_queues_iff now tag name).mpr (each name), ?_⟩
    rw [wal_publishMessage, wal_routePublish]
    intro queue member q found
    rw [receivers_args] at member
    split at member
    · cases member
    · exact (each queue q found (List.mem_filter.mp member).1).unlogged

/-- A message through the management interface leaves the queues and the log as the same
    publish of any client outside of a transaction would, exactly if it reaches no queue or
    AMQP would make no more of it. -/
theorem managed_like_direct_iff (env : Env) (s : BrokerState) (exchange : String)
    (req : PublishRequest) (connId : UInt64) (channel : UInt16) (now : Instant)
    (out : s.inTx connId = false)
    (permitted : checkPermission env s connId (·.write) (resolveExchangeName exchange) = true) :
    (served env s (.publishMessage exchange req.routingKey req.payload)).Alike Message.SameReading
        (served env s (.basicPublish connId channel (req.args exchange) now)) ↔
      (∀ queue ∈ req.targets s exchange, s.queues.get? queue = none) ∨
        req.Plain env s exchange := by
  have direct : served env s (.basicPublish connId channel (req.args exchange) now) =
      (routePublish (req.args exchange) now (s.confirmTag? connId channel) :
        Act env (List Frame)).final (s.numbered connId channel) := by
    change (basicPublish connId channel (req.args exchange) now : Act env (List Frame)).final s = _
    rw [(basicPublish_permitted now permitted).2, if_neg (Bool.eq_false_iff.mp out)]
  obtain ⟨conns, numbered⟩ := s.numbered_connState connId channel
  have published : ∀ name, (served env s (.publishMessage exchange req.routingKey
      req.payload)).queues.get? name = ((publishMessage exchange req.routingKey req.payload :
        Act env (List Frame)).final { s with connState := conns }).queues.get? name := by
    intro name
    rw [publishMessage_pushes]
    exact publishMessage_pushes name
  have logged : (served env s (.publishMessage exchange req.routingKey req.payload)).wal =
      ((publishMessage exchange req.routingKey req.payload :
        Act env (List Frame)).final { s with connState := conns }).wal := by
    rw [wal_publishMessage]
    exact wal_publishMessage
  rw [direct, numbered, BrokerState.Alike.congr published logged, managed_like_route_iff]
  refine or_congr Iff.rfl ?_
  constructor
  · rintro ⟨schemas, named, bare, queues⟩
    exact ⟨schemas, named, bare, queues⟩
  · rintro ⟨schemas, named, bare, queues⟩
    exact ⟨schemas, named, bare, queues⟩

end

def bareRequest (routingKey : String) : PublishRequest := ⟨routingKey, [8], none, none⟩

/-- A client, and a queue that is bound to an exchange with a name. -/
def onFanout : BrokerState := reached (plainEnv 64 1) guestOnly none
  (session "q" ++ [.queueBind "q" "amq.fanout" "" false])

theorem managed_like_direct_fanout :
    (served (plainEnv 64 1) onFanout (.publishMessage "amq.fanout" "" [8])).Alike
      Message.SameReading (served (plainEnv 64 1) onFanout
        (.basicPublish 1 1 ((bareRequest "").args "amq.fanout") 0)) := by
  refine (managed_like_direct_iff (plainEnv 64 1) onFanout "amq.fanout" (bareRequest "") 1 1 0
    (by decide +kernel) (by decide +kernel)).mpr (.inr ⟨?_, ?_, .inl ⟨rfl, rfl⟩, ?_⟩)
  · decide +kernel
  · decide +kernel
  · decide +kernel

/-- A client, and a queue for one message that has it. -/
def onFull : BrokerState := reached (plainEnv 64 1) guestOnly none
  (limited 1 ++ [publishTo "q" false [7]])

/-- The limit of the queue is passed. -/
theorem managed_beyond_limit : onFull.inTx 1 = false ∧
    checkPermission (plainEnv 64 1) onFull 1 (·.write) (resolveExchangeName "amq.default") = true ∧
    ¬ (served (plainEnv 64 1) onFull (.publishMessage "amq.default" "q" [8])).Alike
      Message.SameReading (served (plainEnv 64 1) onFull
        (.basicPublish 1 1 ((bareRequest "q").args "amq.default") 0)) := by
  refine ⟨by decide +kernel, by decide +kernel, ?_⟩
  intro alike
  have direct : ((served (plainEnv 64 1) onFull (.basicPublish 1 1
      ((bareRequest "q").args "amq.default") 0)).queues.get? "q").map (·.messages.len) =
      some 1 := by decide +kernel
  have managed : ((served (plainEnv 64 1) onFull (.publishMessage "amq.default" "q"
      [8])).queues.get? "q").map (·.messages.len) = some 2 := by decide +kernel
  obtain ⟨q', found, one⟩ := Option.map_eq_some_iff.mp direct
  obtain ⟨q, present, same⟩ := alike.found found
  rw [present, Option.map_some] at managed
  have two := Option.some.inj managed
  rw [← same.len, one] at two
  exact absurd two (by decide)

end RocketmqBroker
