import RocketmqBroker.Durability.Identity

/-!
The order of a queue after a crash. Replay puts the messages of the log back in
log order, all with priority 0 and without expiration, so a queue comes back as
it was when its logged messages are of that kind and wait in log order.
-/
namespace RocketmqBroker

/-- What replay gives every message: no priority and no expiration. -/
def QueueMessage.Plain (m : QueueMessage) : Prop := m.priority = 0 ∧ m.expiration = none

instance (m : QueueMessage) : Decidable m.Plain := inferInstanceAs (Decidable (_ ∧ _))

namespace QueueState

def logged (ids : List UInt64) (q : QueueState) : List UInt64 := q.readyIds.filter (· ∈ ids)

/-- The messages that the log would bring back, as it would bring them back. -/
structure InOrder (ids : List UInt64) (q : QueueState) : Prop where
  ready : (q.logged ids).Sublist ids
  plain : ∀ m ∈ q.messages.ready, m.id ∈ ids → m.Plain
  inflight : ∀ tag m, q.inflight.get? tag = some m → tag ∈ ids → (QueueMessage.full m).Plain

/-- A message that may go behind all others: one of no concern to the log, or a
    plain one logged after those that wait. -/
def Behind (ids : List UInt64) (q : QueueState) (m : QueueMessage) : Prop :=
  m.id ∈ ids → m.Plain ∧ (q.logged ids ++ [m.id]).Sublist ids

def Ahead (ids : List UInt64) (q : QueueState) (m : QueueMessage) : Prop :=
  m.id ∈ ids → m.Plain ∧ (m.id :: q.logged ids).Sublist ids

section
variable {ids : List UInt64} {q : QueueState}

theorem logged_of_ready {messages : List QueueMessage} (same : q.messages.ready = messages) :
    q.logged ids = (messages.map QueueMessage.id).filter (· ∈ ids) := by
  rw [logged, readyIds, same]

theorem InOrder.fewer {q' : QueueState} (h : q.InOrder ids)
    (ready : q'.messages.ready.Sublist q.messages.ready)
    (inflight : ∀ tag m, q'.inflight.get? tag = some m → q.inflight.get? tag = some m) :
    q'.InOrder ids := by
  refine ⟨?_, ?_, ?_⟩
  · exact ((ready.map _).filter _).trans h.ready
  · exact fun m member => h.plain m (ready.subset member)
  · exact fun tag m present => h.inflight tag m (inflight tag m present)

theorem logged_between {q' : QueueState} {front back : List QueueMessage} {m : QueueMessage}
    (before : q.messages.ready = front ++ back)
    (after : q'.messages.ready = front ++ m :: back) (unlogged : m.id ∉ ids) :
    q'.logged ids = q.logged ids := by
  rw [logged_of_ready before, logged_of_ready after]
  simp [unlogged]

theorem plain_between {q' : QueueState} {front back : List QueueMessage} {m : QueueMessage}
    (h : q.InOrder ids) (before : q.messages.ready = front ++ back)
    (after : q'.messages.ready = front ++ m :: back) (own : m.id ∈ ids → m.Plain) :
    ∀ other ∈ q'.messages.ready, other.id ∈ ids → other.Plain := by
  intro other member
  have old : ∀ x ∈ front ++ back, x.id ∈ ids → x.Plain := by
    intro x inside
    rw [← before] at inside
    exact h.plain x inside
  rw [after] at member
  rcases List.mem_append.mp member with first | rest
  · exact old other (List.mem_append_left _ first)
  · rcases List.mem_cons.mp rest with rfl | last
    · exact own
    · exact old other (List.mem_append_right _ last)

theorem inOrder_pushBack (h : q.InOrder ids) {m : QueueMessage} (behind : q.Behind ids m) :
    (q.pushBack m).InOrder ids := by
  obtain ⟨front, back, before, after⟩ := q.messages.ready_pushBack_between m
  refine ⟨?_, plain_between h before after fun logged => (behind logged).1, h.inflight⟩
  by_cases member : m.id ∈ ids
  · obtain ⟨plain, last⟩ := behind member
    rw [logged_of_ready (PriorityQueue.ready_pushBack plain.1), List.map_append,
      List.filter_append]
    simpa [member, logged, readyIds] using last
  · rw [logged_between (q := q) before after member]
    exact h.ready

theorem inOrder_pushFront (h : q.InOrder ids) {m : QueueMessage} (ahead : q.Ahead ids m) :
    { q with messages := q.messages.pushFront m }.InOrder ids := by
  obtain ⟨front, back, before, after, higher⟩ := q.messages.ready_pushFront m
  refine ⟨?_, plain_between h before after fun logged => (ahead logged).1, h.inflight⟩
  by_cases member : m.id ∈ ids
  · obtain ⟨plain, first⟩ := ahead member
    -- nothing that the log knows has a higher priority
    have none : (front.map QueueMessage.id).filter (· ∈ ids) = [] := by
      rw [List.filter_eq_nil_iff]
      intro id inside
      obtain ⟨other, here, rfl⟩ := List.mem_map.mp inside
      simp only [decide_eq_true_eq]
      intro known
      have low := (h.plain other (by rw [before]; exact List.mem_append_left _ here) known).1
      have high := higher other here
      rw [low] at high
      exact Nat.not_lt_zero _ high
    rw [logged_of_ready before, List.map_append, List.filter_append, none] at first
    rw [logged_of_ready after, List.map_append, List.filter_append, none]
    simpa [member] using first
  · rw [logged_between (q := q) before after member]
    exact h.ready

theorem inOrder_popTo {env : Env} {wal : SegmentCoordinator} (h : q.InOrder ids) {fate : Fate}
    (allowed : fate = .back → ∀ qm rest, q.messages.popFront = some (qm, rest) →
      { q with messages := rest }.Behind ids qm) :
    (q.popTo env wal fate).InOrder ids := by
  unfold popTo
  cases popped : q.messages.popFront with
  | none => exact h
  | some front =>
    obtain ⟨qm, rest⟩ := front
    have ready := PriorityQueue.ready_popFront popped
    have inside : qm ∈ q.messages.ready := by
      rw [ready]
      exact List.mem_cons_self
    have without : { q with messages := rest }.InOrder ids :=
      h.fewer (by rw [ready]; exact List.sublist_cons_self _ _) fun _ _ present => present
    cases resolved : qm.resolve env.crc32 wal with
    | error err =>
      simp only [resolved]
      cases fate <;> exact without
    | ok m =>
      have same : (QueueMessage.full m).id = qm.id := QueueMessage.resolve_id resolved
      have standing := QueueMessage.resolve_standing resolved
      have plain : qm.Plain → (QueueMessage.full m).Plain := by
        intro plain
        exact ⟨standing.1.trans plain.1, standing.2.trans plain.2⟩
      simp only [resolved]
      cases fate with
      | drop => exact without
      | hold =>
        refine ⟨without.ready, without.plain, ?_⟩
        intro tag found present logged
        rw [FinMap.get?_insert] at present
        split at present
        · rename_i tagged
          cases present
          subst tagged
          refine plain (h.plain qm inside ?_)
          rw [← same]
          exact logged
        · exact h.inflight tag found present logged
      | front =>
        refine inOrder_pushFront without ?_
        intro logged
        rw [same] at logged ⊢
        refine ⟨plain (h.plain qm inside logged), ?_⟩
        have all := h.ready
        rw [logged_of_ready ready, List.map_cons, List.filter_cons, if_pos (by simpa)] at all
        exact all
      | back =>
        refine inOrder_pushBack without ?_
        intro logged
        rw [same] at logged ⊢
        obtain ⟨own, last⟩ := allowed rfl qm rest popped logged
        exact ⟨plain own, last⟩

theorem inOrder_dropOldest (h : q.InOrder ids) : q.dropOldest.InOrder ids := by
  unfold dropOldest
  cases popped : q.messages.popOldest with
  | none => exact h
  | some oldest => exact h.fewer (PriorityQueue.ready_popOldest popped) fun _ _ present => present

theorem inOrder_release (h : q.InOrder ids) (tag : UInt64) : (q.release tag).InOrder ids := by
  refine h.fewer (List.Sublist.refl _) ?_
  intro other m present
  rw [release, FinMap.get?_erase] at present
  split at present
  · contradiction
  · exact present

theorem inOrder_putBack (h : q.InOrder ids) (tagged : q.Tagged) {tag : UInt64} (counted : Bool)
    (first : tag ∈ q.inflight.keys → tag ∈ ids → (tag :: q.logged ids).Sublist ids) :
    (q.putBack tag counted).InOrder ids := by
  unfold putBack
  cases found : q.inflight.get? tag with
  | none => exact h
  | some m =>
    have same : m.id = tag := tagged tag m found
    have released := inOrder_release h tag
    refine inOrder_pushFront released ?_
    intro logged
    have id : (QueueMessage.full (if counted then { m with
        redelivered := true
        deliveryCount := m.deliveryCount + 1 } else m)).id = tag := by
      cases counted <;> exact same
    rw [id] at logged ⊢
    refine ⟨?_, first (FinMap.mem_keys_iff.mpr ⟨m, found⟩) logged⟩
    have plain := h.inflight tag m found logged
    cases counted <;> exact plain

theorem inOrder_acked (h : q.InOrder ids) (acked : List UInt64) :
    q.InOrder (ids.filter (· ∉ acked)) := by
  refine ⟨?_, ?_, ?_⟩
  · have fewer : q.logged (ids.filter (· ∉ acked)) = (q.logged ids).filter (· ∉ acked) := by
      simp only [logged, List.filter_filter, List.mem_filter]
      refine List.filter_congr fun id _ => ?_
      simp [Bool.and_comm]
    rw [fewer]
    exact h.ready.filter _
  · exact fun m member known => h.plain m member (List.mem_filter.mp known).1
  · exact fun tag m present known => h.inflight tag m present (List.mem_filter.mp known).1

theorem inOrder_logged (h : q.InOrder ids) {m : QueueMessage} (fresh : m.id ∉ q.held)
    (plain : m.Plain) : (q.pushBack m).InOrder (ids ++ [m.id]) := by
  rw [held_eq_ids, Multiset.mem_coe, List.mem_append, not_or] at fresh
  have longer : q.logged (ids ++ [m.id]) = q.logged ids := by
    refine List.filter_congr fun id member => ?_
    have other : id ≠ m.id := by
      rintro rfl
      exact fresh.1 member
    simp [other]
  have known : ∀ id, id ∈ ids ++ [m.id] → id ≠ m.id → id ∈ ids := by
    intro id member other
    rcases List.mem_append.mp member with old | own
    · exact old
    · exact absurd (List.mem_singleton.mp own) other
  have same : q.InOrder (ids ++ [m.id]) := by
    refine ⟨?_, ?_, ?_⟩
    · rw [longer]
      exact h.ready.trans (List.sublist_append_left _ _)
    · intro other member logged
      refine h.plain other member (known _ logged ?_)
      intro equal
      exact fresh.1 (equal ▸ List.mem_map_of_mem member)
    · intro tag found present logged
      refine h.inflight tag found present (known _ logged ?_)
      rintro rfl
      exact fresh.2 (FinMap.mem_keys_iff.mpr ⟨found, present⟩)
  refine inOrder_pushBack same fun _ => ⟨plain, ?_⟩
  rw [longer]
  exact h.ready.append (List.Sublist.refl _)

end

end QueueState

section
variable {env : Env} {s : BrokerState} {l : Life} {e : Effect} {rs ts : List LogRecord}
  {name : String}

theorem filterMap_restored_append (acked more : List UInt64) (rs : List LogRecord) :
    (rs.filterMap (LogRecord.restored (acked ++ more) name)).map Message.id =
      ((rs.filterMap (LogRecord.restored acked name)).map Message.id).filter (· ∉ more) := by
  induction rs with
  | nil => rfl
  | cons r rs ih =>
    cases restored : r.restored acked name with
    | none =>
      have still : r.restored (acked ++ more) name = none := by
        cases after : r.restored (acked ++ more) name with
        | none => rfl
        | some m =>
          rw [restored_of_append after] at restored
          contradiction
      rw [List.filterMap_cons_none restored, List.filterMap_cons_none still]
      exact ih
    | some m =>
      by_cases gone : m.id ∈ more
      · have not : r.restored (acked ++ more) name = none := by
          cases after : r.restored (acked ++ more) name with
          | none => rfl
          | some m' =>
            have same := restored_of_append after
            rw [restored] at same
            cases same
            exact absurd (List.mem_append_right _ gone) (restored_unacked after)
        rw [List.filterMap_cons_none not, List.filterMap_cons_some restored]
        simpa [gone] using ih
      · rw [List.filterMap_cons_some (restored_append restored gone),
          List.filterMap_cons_some restored]
        simpa [gone] using ih

theorem restored_none (quiet : ∀ r ∈ ts, LogRecord.restored [] name r = none)
    (acked : List UInt64) : ts.filterMap (LogRecord.restored acked name) = [] := by
  rw [List.filterMap_eq_nil_iff]
  intro r member
  cases restored : r.restored acked name with
  | none => rfl
  | some m =>
    have before : r.restored [] name = some m := restored_of_append restored
    rw [quiet r member] at before
    contradiction

theorem restoredIds_quiet (quiet : ∀ r ∈ ts, LogRecord.restored [] name r = none) :
    restoredIds (rs ++ ts) name = (restoredIds rs name).filter (· ∉ ackedOf ts) := by
  have none := restored_none quiet
  rw [restoredIds, restoredIds, restoredMessages, restoredMessages, ackedOf_append,
    ← filterMap_restored_append, List.dropWhile_append]
  split
  · rename_i undeclared
    have behind : (ts.dropWhile fun r => !r.declares name).filterMap
        (LogRecord.restored (ackedOf rs ++ ackedOf ts) name) = [] :=
      restored_none (fun r member => quiet r ((List.dropWhile_sublist _).subset member)) _
    rw [behind, List.isEmpty_iff.mp undeclared]
    rfl
  · rw [List.filterMap_append, none, List.append_nil]

theorem restoredIds_enqueue {id : UInt64} (declared : logsQueue rs name = true)
    (unacked : id ∉ ackedOf rs) (exchange routingKey : String) (headers body : Bytes) :
    restoredIds (rs ++ [.enqueue name id exchange routingKey headers body]) name =
      restoredIds rs name ++ [id] := by
  have noAck : ackedOf [LogRecord.enqueue name id exchange routingKey headers body] = [] := rfl
  rw [restoredIds, restoredMessages, dropWhile_declared declared, ackedOf_append, noAck,
    List.append_nil, List.filterMap_append, List.map_append]
  simp [LogRecord.restored, unacked, restoredIds, restoredMessages, recoveredMessage,
    Message.newRouted]

end

/-- A logged message has neither priority nor expiration, and none that is in the
    log comes to wait out of log order. -/
def Effect.Orderly (env : Env) (s : BrokerState) : Effect → Prop
  | enqueue queue ctx now => ∀ q ∈ s.queues.get? queue,
      q.options.durable = true → ctx.isPersistent = true →
        capPriority ctx.priority q.options.maxPriority = 0 ∧
          resolveTtl q.options.messageTtl ctx.perMsgTtl now = none
  | pushFull queue m => ∀ q ∈ s.queues.get? queue,
      q.Behind (restoredIds (records env s) queue) (.full m)
  | pop queue fate => fate = .back → ∀ q ∈ s.queues.get? queue,
      ∀ popped ∈ q.messages.popFront,
        { q with messages := popped.2 }.Behind (restoredIds (records env s) queue) popped.1
  | requeue queue tag _ => ∀ q ∈ s.queues.get? queue,
      tag ∈ q.inflight.keys → tag ∈ restoredIds (records env s) queue →
        (tag :: q.logged (restoredIds (records env s) queue)).Sublist
          (restoredIds (records env s) queue)
  | _ => True

instance (ids : List UInt64) (q : QueueState) (m : QueueMessage) :
    Decidable (q.Behind ids m) := inferInstanceAs (Decidable (_ → _))

instance (env : Env) (s : BrokerState) (e : Effect) : Decidable (e.Orderly env s) := by
  apply Effect.casesOn (motive := fun e => Decidable (e.Orderly env s)) e <;> intros <;>
    dsimp only [Effect.Orderly] <;> infer_instance

def Orderly (env : Env) (l : Life) (e : Effect) : Prop :=
  Identified env l e ∧ e.Orderly env l.broker

instance (env : Env) (l : Life) (e : Effect) : Decidable (Orderly env l e) :=
  inferInstanceAs (Decidable (_ ∧ _))

def Ordered (env : Env) (s : BrokerState) : Prop :=
  ∀ name q, s.queues.get? name = some q → q.InOrder (restoredIds (records env s) name)

section
variable {env : Env} {s : BrokerState} {l : Life} {e : Effect} {name : String}

theorem inOrder_new (ids : List UInt64) (q : NewQueue) : q.state.InOrder ids := by
  refine ⟨?_, ?_, ?_⟩
  · rw [QueueState.logged, QueueState.readyIds, q.messages]
    exact List.nil_sublist _
  · intro m member
    rw [q.messages] at member
    contradiction
  · intro tag m present
    rw [q.inflight] at present
    contradiction

theorem inOrder_tuned {ids : List UInt64} {q : QueueState} (h : q.InOrder ids) (change : Tuning) :
    (change.apply q).InOrder ids := by
  refine h.fewer ?_ ?_
  · rw [change.messages]
  · intro tag m present
    rw [change.inflight] at present
    exact present

theorem Sound.next_unrestored (h : Sound env l) (fresh : l.Fresh) (name : String) :
    l.broker.nextMsgId ∉ restoredIds (records env l.broker) name :=
  fun restored => h.next_unlogged fresh (mem_loggedIds_of_restored restored)

theorem not_contained {queue : String} {q : QueueState}
    (missing : s.queues.contains queue = false) : s.queues.get? queue ≠ some q := by
  intro found
  rw [FinMap.contains, found] at missing
  contradiction

theorem ordered_memory (h : Sound env l) (ordered : Ordered env l.broker)
    (orderly : Orderly env l e) (goesOn : e.restarts = false)
    (unlogged : (e.logged l.broker).filterMap LogRecord.enqueuedId = []) :
    ∀ name q, (e.inMemory env l.broker).queues.get? name = some q →
      q.InOrder (restoredIds (records env l.broker) name) := by
  obtain ⟨⟨-, identified⟩, order⟩ := orderly
  cases e with
  | books change =>
    rw [Effect.inMemory, change.queues]
    exact ordered
  | tune queue change => exact forall_modifyQueue ordered fun q _ old => inOrder_tuned old change
  | tuneAll change =>
    intro name q present
    obtain ⟨old, found, rfl⟩ := Option.map_eq_some_iff.mp
      ((FinMap.get?_mapVals _ _ _).symm.trans present)
    exact inOrder_tuned (ordered name old found) change
  | createQueue queue new logs schema =>
    intro name q present
    rw [createQueue_queues, FinMap.get?_orInsert] at present
    split at present
    · rename_i same
      subst same
      cases found : l.broker.queues.get? name with
      | none =>
        rw [found] at present
        cases present
        exact inOrder_new _ new
      | some old =>
        rw [found] at present
        cases present
        exact ordered name old found
    · exact ordered name q present
  | removeQueue queue =>
    intro name q present
    rw [Effect.inMemory, FinMap.get?_erase] at present
    split at present
    · contradiction
    · exact ordered name q present
  | enqueue queue ctx now =>
    refine forall_modifyQueue (s := l.broker.allocMsgId.2) ordered fun q _ old => ?_
    refine (QueueState.inOrder_pushBack old fun logged => ?_).fewer (List.Sublist.refl _)
      fun _ _ present => present
    rw [buildQueueMessage_id] at logged
    exact absurd logged (h.next_unrestored identified.1 queue)
  | enqueueFull queue exchange routingKey headers body =>
    refine forall_modifyQueue (s := l.broker.allocMsgId.2) ordered fun q _ old => ?_
    exact QueueState.inOrder_pushBack old fun logged =>
      absurd logged (h.next_unrestored identified queue)
  | pushFull queue m =>
    exact forall_modifyQueue ordered fun q found old =>
      QueueState.inOrder_pushBack old (order q found)
  | replicatePublish queue msgId body =>
    exact forall_modifyQueue ordered fun q found _ => absurd found (not_contained identified)
  | replicateAck queue msgId =>
    exact forall_modifyQueue ordered fun q found _ => absurd found (not_contained identified)
  | pop queue fate =>
    refine forall_modifyQueue ordered fun q found old => ?_
    exact QueueState.inOrder_popTo old fun back qm rest popped =>
      order back q found (qm, rest) popped
  | popOldest queue =>
    exact forall_modifyQueue ordered fun q _ old => QueueState.inOrder_dropOldest old
  | purge queue =>
    exact forall_modifyQueue ordered fun q _ old =>
      old.fewer (List.nil_sublist _) fun _ _ present => present
  | settle queue tag =>
    exact forall_modifyQueue ordered fun q _ old => QueueState.inOrder_release old tag
  | discard queue tag =>
    exact forall_modifyQueue ordered fun q _ old => QueueState.inOrder_release old tag
  | requeue queue tag counted =>
    refine forall_modifyQueue ordered fun q found old => ?_
    exact QueueState.inOrder_putBack old (h.tagged queue q found) counted (order q found)
  | restart now auth cluster => contradiction
  | alloc | createExchange | removeExchange | bind | appendBinding | unbind | compact =>
    exact ordered

theorem restored_of_enqueuedId {ts : List LogRecord}
    (silent : ts.filterMap LogRecord.enqueuedId = []) :
    ∀ r ∈ ts, LogRecord.restored [] name r = none := by
  intro r member
  cases r with
  | enqueue queue msgId exchange routingKey headers body =>
    have not := List.filterMap_eq_nil_iff.mp silent _ member
    contradiction
  | _ => rfl

/-- A persistent message to a durable queue. -/
theorem ordered_enqueue (h : Sound env l) (ordered : Ordered env l.broker) {queue : String}
    {ctx : EnqueueCtx} {now : Instant} (orderly : Orderly env l (.enqueue queue ctx now))
    {q : QueueState} (found : l.broker.queues.get? queue = some q)
    (durable : q.options.durable = true) (persistent : ctx.isPersistent = true) :
    Ordered env (exec env l.broker (.enqueue queue ctx now)) := by
  have logged : Effect.logged l.broker (.enqueue queue ctx now) =
      [.enqueue queue l.broker.nextMsgId ctx.exchange ctx.routingKey ctx.propBytes
        ctx.bodyBytes] := by
    simp [Effect.logged, found, durable, persistent]
  have records' := records_exec h.backed orderly.1.1 (by simp)
  rw [logged] at records'
  have declared : logsQueue (records env l.broker) queue = true :=
    orderly.1.2.2 (by simp [Effect.persisted, found, durable, persistent])
  have fresh := orderly.1.2.1
  have unacked : l.broker.nextMsgId ∉ ackedOf (records env l.broker) :=
    fun acked => h.next_unlogged fresh (mem_loggedIds_of_acked acked)
  obtain ⟨low, lasting⟩ := orderly.2 q found durable persistent
  intro name q' present
  rw [records']
  rw [(exec_memory env l.broker _).1, Effect.inMemory, get?_modifyQueue] at present
  split at present
  · rename_i same
    subst same
    have here : l.broker.allocMsgId.2.queues.get? name = some q := found
    rw [here] at present
    cases present
    rw [restoredIds_enqueue declared unacked]
    have pushed : ∀ m : QueueMessage, m.id = l.broker.nextMsgId → m.Plain →
        { q.pushBack m with lastActivity := now }.InOrder
          (restoredIds (records env l.broker) name ++ [l.broker.nextMsgId]) := by
      intro m id plain
      rw [← id]
      refine (QueueState.inOrder_logged (ordered name q found) ?_ plain).fewer
        (List.Sublist.refl _) fun _ _ present => present
      intro held
      refine not_knows_next fresh (h.heldKnown name _ ?_)
      rw [heldAt, found, ← id]
      exact held
    refine pushed _ (buildQueueMessage_id _ _ _ _ _) ?_
    unfold buildQueueMessage
    split <;> exact ⟨low, lasting⟩
  · rename_i other
    have quiet : ∀ r ∈ [LogRecord.enqueue queue l.broker.nextMsgId ctx.exchange ctx.routingKey
        ctx.propBytes ctx.bodyBytes], LogRecord.restored [] name r = none := by
      intro r member
      obtain rfl := List.mem_singleton.mp member
      simp [LogRecord.restored, other]
    rw [restoredIds_quiet quiet]
    exact QueueState.inOrder_acked (ordered name q' present) _

theorem ordered_append (h : Sound env l) (ordered : Ordered env l.broker)
    (orderly : Orderly env l e) (goesOn : e.restarts = false) (appends : e ≠ .compact) :
    Ordered env (exec env l.broker e) := by
  rcases logged_enqueuedIds orderly.1.2 with silent | ⟨allocates, one⟩
  · intro name q present
    rw [(exec_memory env l.broker e).1] at present
    rw [records_exec h.backed orderly.1.1 appends,
      restoredIds_quiet (restored_of_enqueuedId silent)]
    exact QueueState.inOrder_acked (ordered_memory h ordered orderly goesOn silent name q present) _
  · cases e with
    | enqueue queue ctx now =>
      simp only [Effect.logged] at one
      cases found : l.broker.queues.get? queue with
      | none =>
        rw [found] at one
        contradiction
      | some q =>
        simp only [found] at one
        split at one
        · contradiction
        · rename_i both
          simp only [Bool.or_eq_true, not_or, Bool.not_eq_true, Bool.not_eq_false'] at both
          exact ordered_enqueue h ordered orderly found both.1 both.2
    | alloc | enqueueFull => exact absurd one (by simp [Effect.logged])
    | _ => contradiction

theorem ordered_compact (h : Sound env l) (ordered : Ordered env l.broker) :
    Ordered env (exec env l.broker .compact) := by
  intro name q present
  have same : restoredIds (records env (exec env l.broker .compact)) name =
      restoredIds (records env l.broker) name := by
    rcases records_compact h.backed with same | kept
    · rw [same]
    · rw [kept, restoredIds, restoredMessages_keptRecords]
      rfl
  rw [same]
  exact ordered name q present

theorem ready_restart (backed : Backed env s) (now : Instant) (auth : AuthBackend)
    (cluster : Option ClusterCoordinator) {q : QueueState}
    (present : (restart env now s.wal.dir auth cluster).queues.get? name = some q) :
    q.messages.ready = (restoredMessages (records env s) name).map .full := by
  have ready := readyAt_restart backed now auth cluster name
  rw [present] at ready
  split at ready
  · exact Option.some.inj ready
  · contradiction

theorem restored_plain {rs : List LogRecord} {m : Message} (member : m ∈ restoredMessages rs name) :
    (QueueMessage.full m).Plain := by
  obtain ⟨r, -, restored⟩ := List.mem_filterMap.mp member
  cases r with
  | enqueue queue msgId exchange routingKey headers body =>
    simp only [LogRecord.restored] at restored
    split at restored
    · cases restored
      exact ⟨rfl, rfl⟩
    · contradiction
  | _ => contradiction

theorem ordered_restart (h : Sound env l) (now : Instant) (auth : AuthBackend)
    (cluster : Option ClusterCoordinator) :
    Ordered env (exec env l.broker (.restart now auth cluster)) := by
  intro name q present
  have ready := ready_restart h.backed now auth cluster present
  have same : records env (exec env l.broker (.restart now auth cluster)) =
      records env l.broker := by
    have appended := records_exec (e := .restart now auth cluster) h.backed
      (by simp [Fitting, Effect.logged]) (by simp)
    rwa [show Effect.logged l.broker (.restart now auth cluster) = [] from rfl,
      List.append_nil] at appended
  rw [same]
  refine ⟨?_, ?_, ?_⟩
  · rw [QueueState.logged_of_ready ready, List.map_map]
    exact List.filter_sublist
  · intro m member _
    rw [ready] at member
    obtain ⟨restored, inside, rfl⟩ := List.mem_map.mp member
    exact restored_plain inside
  · intro tag m found
    rw [restart_inflight now auth cluster present] at found
    contradiction

theorem ordered_step (h : Sound env l) (ordered : Ordered env l.broker)
    (orderly : Orderly env l e) : Ordered env (l.step env e).broker := by
  cases restarts : e.restarts with
  | true =>
    cases e with
    | restart now auth cluster => exact ordered_restart h now auth cluster
    | _ => contradiction
  | false =>
    by_cases compacts : e = .compact
    · subst compacts
      exact ordered_compact h ordered
    · exact ordered_append h ordered orderly restarts compacts

end

def QueueMessage.standing (m : QueueMessage) : UInt64 × UInt8 × Option Instant :=
  (m.id, m.priority, m.expiration)

/-- The messages that are in the same queue of both states have the same priority
    and expiration there, and those that wait in both wait in the same order. -/
structure SameOrder (s t : BrokerState) : Prop where
  ready : ∀ name q q', s.queues.get? name = some q → t.queues.get? name = some q' →
    (q'.messages.ready.filter (·.id ∈ q.readyIds)).map QueueMessage.standing =
      (q.messages.ready.filter (·.id ∈ q'.readyIds)).map QueueMessage.standing
  inflight : ∀ name q q', s.queues.get? name = some q → t.queues.get? name = some q' →
    ∀ tag m, q.inflight.get? tag = some m → ∀ m' ∈ q'.messages.ready, m'.id = tag →
      m'.standing = (tag, m.priority, m.expiration)

structure OrderlyRun (env : Env) (auth : AuthBackend) (cluster : Option ClusterCoordinator)
    (ops : List Op) : Prop where
  along : Run.Along (Life.step env) (Orderly env) (firstLife env auth cluster)
    (history env auth cluster ops)

instance (env : Env) (auth : AuthBackend) (cluster : Option ClusterCoordinator) (ops : List Op) :
    Decidable (OrderlyRun env auth cluster ops) :=
  decidable_of_iff (Run.Along (Life.step env) (Orderly env) (firstLife env auth cluster)
    (history env auth cluster ops)) ⟨.mk, OrderlyRun.along⟩

section
variable {env : Env} {s : BrokerState}

theorem standing_plain {m : QueueMessage} (plain : m.Plain) : m.standing = (m.id, 0, none) := by
  rw [QueueMessage.standing, plain.1, plain.2]

/-- Two orders of the same ids, one within the other, are the same. -/
theorem logged_eq {ids : List UInt64} {q : QueueState} (h : q.InOrder ids) (distinct : ids.Nodup) :
    ids.filter (· ∈ q.readyIds) = q.logged ids := by
  have within : (q.logged ids).Sublist (ids.filter (· ∈ q.readyIds)) := by
    have kept : (q.logged ids).filter (· ∈ q.readyIds) = q.logged ids :=
      List.filter_eq_self.mpr fun id member => by simpa using (List.mem_filter.mp member).1
    rw [← kept]
    exact h.ready.filter _
  refine (within.eq_of_length_le ?_).symm
  refine (distinct.sublist List.filter_sublist).length_le_of_subset ?_
  intro id member
  obtain ⟨known, waits⟩ := List.mem_filter.mp member
  exact List.mem_filter.mpr ⟨by simpa using waits, by simpa using known⟩

theorem sameOrder_restart (backed : Backed env s)
    (distinct : ((records env s).filterMap LogRecord.enqueuedId).Nodup) (ordered : Ordered env s)
    (now : Instant) (auth : AuthBackend) (cluster : Option ClusterCoordinator) :
    SameOrder s (restart env now s.wal.dir auth cluster) := by
  refine ⟨?_, ?_⟩
  · intro name q q' found found'
    have ready := ready_restart backed now auth cluster found'
    have order := ordered name q found
    have ids : q'.readyIds = restoredIds (records env s) name := by
      rw [QueueState.readyIds, ready, restoredIds, List.map_map]
      rfl
    have recovered : (q'.messages.ready.filter (·.id ∈ q.readyIds)).map QueueMessage.standing =
        ((restoredIds (records env s) name).filter (· ∈ q.readyIds)).map (·, 0, none) := by
      rw [← ids, show q'.readyIds = q'.messages.ready.map QueueMessage.id from rfl,
        List.filter_map, List.map_map]
      refine List.map_congr_left fun m member => ?_
      have inside := (List.mem_filter.mp member).1
      rw [ready] at inside
      obtain ⟨restored, here, rfl⟩ := List.mem_map.mp inside
      exact standing_plain (restored_plain here)
    have before : (q.messages.ready.filter (·.id ∈ q'.readyIds)).map QueueMessage.standing =
        (q.logged (restoredIds (records env s) name)).map (·, 0, none) := by
      rw [ids, QueueState.logged, QueueState.readyIds, List.filter_map, List.map_map]
      refine List.map_congr_left fun m member => ?_
      obtain ⟨inside, known⟩ := List.mem_filter.mp member
      exact standing_plain (order.plain m inside (by simpa using known))
    rw [recovered, before, logged_eq order (restoredMessages_ids_nodup distinct name)]
  · intro name q q' found found' tag m present m' member same
    rw [ready_restart backed now auth cluster found'] at member
    obtain ⟨restored, here, rfl⟩ := List.mem_map.mp member
    subst same
    have known : restored.id ∈ restoredIds (records env s) name := List.mem_map_of_mem here
    have plain := (ordered name q found).inflight _ m present known
    rw [standing_plain (restored_plain here)]
    exact Prod.ext rfl (Prod.ext plain.1.symm plain.2.symm)

end

/-- A crash after a run whose logged messages were plain and stayed in log order:
    popping a recovered queue hands them out as popping the lost one would have. -/
theorem recovered_in_order (env : Env) (auth : AuthBackend) (cluster : Option ClusterCoordinator)
    (ops : List Op) (orderly : OrderlyRun env auth cluster ops) (now : Instant)
    (auth' : AuthBackend) (cluster' : Option ClusterCoordinator) :
    SameOrder (reached env auth cluster ops)
      (restart env now (reached env auth cluster ops).wal.dir auth' cluster') := by
  have start : Sound env (firstLife env auth cluster) ∧
      Ordered env (firstLife env auth cluster).broker := by
    refine ⟨sound_firstLife env auth cluster, ?_⟩
    intro name q present
    exact absurd present (Option.some_ne_none q).symm
  have final := Run.invariant (fun _ l => Sound env l ∧ Ordered env l.broker) start
    (fun _ _ _ allowed h => ⟨sound_step h.1 allowed.1, ordered_step h.1 h.2 allowed⟩) orderly.along
  obtain ⟨sound, ordered⟩ := final
  have backed := sound.backed
  have distinct := sound.distinct
  rw [run_broker] at ordered backed distinct
  exact sameOrder_restart backed distinct ordered now auth' cluster'

/-- A message of the client of `session`, with an expiration. -/
def publishExpiring (queue : String) (persistent : Bool) (millis : String) (body : Bytes) : Op :=
  .basicPublish 1 1 ⟨"", queue, false, { BasicProperties.default with
    deliveryMode := some (if persistent then 2 else 1)
    expiration := some millis }, body⟩ 0

/-- Three persistent messages among others; the first is acked, the second comes
    back to the front. -/
def orderlyRun : List Op :=
  session "q" ++ [publishTo "q" true [1], publishExpiring "q" false "60000" [2],
    publishTo "q" true [3], publishTo "q" true [4], .basicGet 1 "q" false, .basicAck 1 1 1,
    .basicGet 1 "q" false, .basicGet 1 "q" false, .basicReject 1 1 3 true]

def standingsAt (s : BrokerState) (name : String) :
    Option (List (UInt64 × UInt8 × Option Instant)) :=
  (readyAt (s.queues.get? name)).map (·.map QueueMessage.standing)

theorem recovered_in_order_requeued :
    let s := reached (plainEnv 64 1) guestOnly none orderlyRun
    let t := restart (plainEnv 64 1) 0 s.wal.dir guestOnly none
    standingsAt s "q" = some [(3, 0, none), (4, 0, none)] ∧
      standingsAt t "q" = some [(3, 0, none), (4, 0, none)] ∧ SameOrder s t := by
  refine ⟨by decide +kernel, by decide +kernel, ?_⟩
  exact recovered_in_order (plainEnv 64 1) guestOnly none orderlyRun (by decide +kernel) 0 guestOnly
    none

theorem SameOrder.single {s t : BrokerState} (h : SameOrder s t) {name : String} {id : UInt64}
    {priority priority' : UInt8} {expiration expiration' : Option Instant}
    (before : standingsAt s name = some [(id, priority, expiration)])
    (after : standingsAt t name = some [(id, priority', expiration')]) :
    expiration = expiration' := by
  obtain ⟨ready, there, standing⟩ := Option.map_eq_some_iff.mp before
  obtain ⟨ready', there', standing'⟩ := Option.map_eq_some_iff.mp after
  obtain ⟨q, found, rfl⟩ := Option.map_eq_some_iff.mp there
  obtain ⟨q', found', rfl⟩ := Option.map_eq_some_iff.mp there'
  obtain ⟨m, messages, own⟩ := List.map_eq_singleton_iff.mp standing
  obtain ⟨m', messages', own'⟩ := List.map_eq_singleton_iff.mp standing'
  have same : m.id = m'.id := by
    exact (congrArg Prod.fst own).trans (congrArg Prod.fst own').symm
  have order := h.ready name q q' found found'
  rw [QueueState.readyIds, QueueState.readyIds, messages, messages'] at order
  simp only [List.map_cons, List.map_nil, List.mem_singleton, same, decide_true,
    List.filter_cons_of_pos, List.filter_nil, own, own', List.cons.injEq, Prod.mk.injEq] at order
  exact order.1.2.2.symm

def expiringRun : List Op := session "q" ++ [publishExpiring "q" true "60000" [1]]

/-- A message that would have expired after a minute comes back to stay. -/
theorem expiration_lost :
    let s := reached (plainEnv 64 1) guestOnly none expiringRun
    let t := restart (plainEnv 64 1) 0 s.wal.dir guestOnly none
    standingsAt s "q" = some [(1, 0, some 60000)] ∧ standingsAt t "q" = some [(1, 0, none)] ∧
      ¬ SameOrder s t := by
  intro s t
  have before : standingsAt s "q" = some [(1, 0, some 60000)] := by decide +kernel
  have after : standingsAt t "q" = some [(1, 0, none)] := by decide +kernel
  refine ⟨before, after, ?_⟩
  exact fun same => Option.some_ne_none _ (same.single before after)

end RocketmqBroker
