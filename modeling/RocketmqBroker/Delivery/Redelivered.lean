import RocketmqBroker.Delivery.HandOuts
import RocketmqBroker.Durability.Identity

/-!
The redelivered flag over a run. A message is handed out by a delivery, by Basic.Get or by the
management interface, and may come back to its queue. A negative acknowledgement and recovery
set the flag on the way; a disconnect and the management interface put the message back as
it was handed out.
-/
namespace RocketmqBroker
open Run.Program

def QueueMessage.redelivered : QueueMessage → Bool
  | full m => m.redelivered
  | ref r => r.redelivered

def flagsOf (name : String) (id : UInt64) (handed : List (String × Message)) : List Bool :=
  (handed.filter fun p => p.1 = name ∧ p.2.id = id).map fun p => p.2.redelivered

namespace HandOuts

def flags (h : HandOuts) (name : String) (id : UInt64) : List Bool := flagsOf name id h.handed

/-- Nothing is handed out twice without the flag, neither of one message nor of several that
    share an id. -/
structure RepeatsFlagged (h : HandOuts) : Prop where
  again : ∀ name id, (h.entered name).count id ≤ 1 →
    ∀ flag ∈ (h.flags name id).tail, flag = true
  once : ∀ name id, (h.flags name id).count false ≤ (h.entered name).count id

end HandOuts

/-- What comes back by a disconnect or by the management interface has the flag already. -/
def BacksFlagged (env : Env) (s : BrokerState) : Effect → Prop
  | .pop queue .back => ∀ m ∈ frontAt env s queue, m.redelivered = true
  | .requeue queue tag false =>
    ∀ q ∈ s.queues.get? queue, ∀ m ∈ q.inflight.get? tag, m.redelivered = true
  | _ => True

instance (env : Env) (s : BrokerState) (e : Effect) : Decidable (BacksFlagged env s e) := by
  cases e with
  | pop queue fate => cases fate <;> dsimp only [BacksFlagged] <;> infer_instance
  | requeue queue tag counted => cases counted <;> dsimp only [BacksFlagged] <;> infer_instance
  | _ => exact isTrue trivial

section
variable {env : Env} {s : BrokerState} {e : Effect} {expires : Bool} {name queue : String}
  {id : UInt64} {m : Message}

theorem resolve_redelivered {crc32 : Bytes → UInt32} {wal : SegmentCoordinator}
    {qm : QueueMessage} (read : qm.resolve crc32 wal = .ok m) :
    m.redelivered = qm.redelivered := by
  cases qm with
  | full m' =>
    cases read
    rfl
  | ref r =>
    obtain ⟨payload, _, rest⟩ := Fallible.bind_eq_ok.mp read
    cases rest
    rfl

theorem flagsOf_append (handed more : List (String × Message)) :
    flagsOf name id (handed ++ more) = flagsOf name id handed ++ flagsOf name id more := by
  unfold flagsOf
  rw [List.filter_append, List.map_append]

theorem mem_flagsOf {handed : List (String × Message)} {flag : Bool}
    (member : flag ∈ flagsOf name id handed) :
    ∃ m, (name, m) ∈ handed ∧ m.id = id ∧ m.redelivered = flag := by
  obtain ⟨⟨queue, m⟩, kept, rfl⟩ := List.mem_map.mp member
  obtain ⟨inside, here⟩ := List.mem_filter.mp kept
  obtain ⟨rfl, same⟩ := of_decide_eq_true here
  exact ⟨m, inside, same, rfl⟩

theorem restored_flagged {now : Instant} {auth : AuthBackend} {cluster : Option ClusterCoordinator}
    {q : QueueState} {qm : QueueMessage}
    (found : (restart env now s.wal.dir auth cluster).queues.get? name = some q)
    (member : qm ∈ q.messages.contents) : qm.redelivered = true := by
  obtain ⟨msgId, exchange, routingKey, headers, body, -, rfl⟩ := mem_restart found member
  rfl

theorem adds_unflagged {qm : QueueMessage} (adds : e.Adds env s name qm)
    (backs : BacksFlagged env s e) (unflagged : qm.redelivered = false) :
    (name, qm.id) ∈ e.arrived s ∨ e = .pop name .front ∧
      ∃ q first, s.queues.get? name = some q ∧ first ∈ q.messages.contents ∧
        first.id = qm.id ∧ first.redelivered = false := by
  have comes (known : s.queues.contains name = true) :
      (name, qm.id) ∈ idsAt s name fun _ => [qm.id] := by
    obtain ⟨q, found⟩ := Option.isSome_iff_exists.mp known
    unfold idsAt
    rw [found]
    exact List.mem_singleton_self _
  cases adds with
  | enqueue pushed =>
    obtain ⟨q, found, built⟩ := Option.map_eq_some_iff.mp pushed
    have known : s.queues.contains name = true := Option.isSome_iff_exists.mpr ⟨q, found⟩
    have id : qm.id = s.nextMsgId := by
      rw [← built]
      exact buildQueueMessage_id _ _ _ _ _
    rw [id] at comes
    rw [id]
    exact .inl (comes known)
  | enqueueFull known | pushFull known | replicated known => exact .inl (comes known)
  | rotated found front fated =>
    rename_i fate q first m
    have flag : m.redelivered = first.redelivered := resolve_redelivered front.2
    cases fated with
    | inl rejected =>
      refine .inr ⟨by rw [rejected], q, first, found, front.mem, ?_, ?_⟩
      · exact (QueueMessage.resolve_id front.2).symm
      · rw [← flag]
        exact unflagged
    | inr back =>
      rw [back] at backs
      have flagged := backs m (mem_frontAt_of found front)
      exact absurd (flagged.symm.trans unflagged) (by decide)
  | requeued found held =>
    rename_i tag counted q m
    cases counted with
    | true => contradiction
    | false =>
      have flagged := backs q found m held
      exact absurd (flagged.symm.trans unflagged) (by decide)
  | restored found member =>
    exact absurd ((restored_flagged found member).symm.trans unflagged) (by decide)

end

/-- How many ready messages of a queue have the id and not the flag. -/
def QueueState.unmarked (id : UInt64) (q : QueueState) : Nat :=
  q.messages.contents.countP fun qm => qm.id = id ∧ qm.redelivered = false

def unmarkedAt (s : BrokerState) (name : String) (id : UInt64) : Nat :=
  (s.queues.get? name).elim 0 (QueueState.unmarked id)

section
variable {env : Env} {s : BrokerState} {e : Effect} {expires : Bool} {name queue : String}
  {id : UInt64} {m : Message}

theorem unmarked_push {q q' : QueueState} {qm : QueueMessage} {x : UInt64}
    (messages : q'.messages = q.messages.pushBack qm) (same : qm.id = x) :
    q'.unmarked id ≤ q.unmarked id + ([x] : List UInt64).count id := by
  unfold QueueState.unmarked
  rw [messages, PriorityQueue.contents_pushBack, Multiset.countP_cons, List.count_singleton, same]
  split
  · rename_i here
    rw [here.1]
    simp
  · exact Nat.le_add_right _ _

theorem unmarked_le {q q' : QueueState} (fewer : q'.messages.contents ≤ q.messages.contents) :
    q'.unmarked id ≤ q.unmarked id := Multiset.countP_le_of_le _ fewer

theorem unmarked_modifyQueue {f : QueueState → QueueState} {ins : QueueState → List UInt64}
    (moves : ∀ q, s.queues.get? queue = some q →
      (f q).unmarked id ≤ q.unmarked id + (ins q).count id) :
    unmarkedAt (s.modifyQueue queue f) name id ≤
      unmarkedAt s name id + (idsOf name (idsAt s queue ins)).count id := by
  unfold unmarkedAt
  rw [idsOf_idsAt, get?_modifyQueue]
  split
  · rename_i same
    subst same
    cases found : s.queues.get? name with
    | none => exact Nat.zero_le _
    | some q => exact moves q found
  · exact Nat.le_add_right _ _

theorem unmarked_keeps {f : QueueState → QueueState}
    (moves : ∀ q, s.queues.get? queue = some q → (f q).unmarked id ≤ q.unmarked id) :
    unmarkedAt (s.modifyQueue queue f) name id ≤ unmarkedAt s name id := by
  have none_in : ∀ q, s.queues.get? queue = some q →
      (f q).unmarked id ≤ q.unmarked id + ((fun _ => [] : QueueState → List UInt64) q).count id :=
    moves
  refine (unmarked_modifyQueue none_in).trans ?_
  rw [idsAt_nil]
  exact le_refl _

theorem unmarked_putBack {q : QueueState} {tag : UInt64} {counted : Bool}
    (flagged : counted = false → ∀ m ∈ q.inflight.get? tag, m.redelivered = true) :
    (q.putBack tag counted).unmarked id ≤ q.unmarked id := by
  unfold QueueState.putBack
  split
  · exact le_refl _
  · rename_i m found
    unfold QueueState.unmarked
    dsimp only
    rw [PriorityQueue.contents_pushFront, Multiset.countP_cons_of_neg]
    rintro ⟨-, unflagged⟩
    cases counted with
    | true => contradiction
    | false => exact absurd ((flagged rfl m found).symm.trans unflagged) (by decide)

/-- What is taken from the front does not wait without the flag any more, also when it goes
    to the back. -/
theorem unmarked_popTo {wal : SegmentCoordinator} {q : QueueState} {first : QueueMessage}
    {rest : PriorityQueue} {fate : Fate} (popped : q.messages.popFront = some (first, rest))
    (read : first.resolve env.crc32 wal = .ok m) (taken : fate ≠ .front)
    (backs : fate = .back → m.redelivered = true) :
    (q.popTo env wal fate).unmarked id + (if m.id = id ∧ m.redelivered = false then 1 else 0) ≤
      q.unmarked id := by
  have flag : m.redelivered = first.redelivered := resolve_redelivered read
  have same : m.id = first.id := QueueMessage.resolve_id read
  unfold QueueState.popTo QueueState.unmarked
  rw [PriorityQueue.contents_popFront popped, Multiset.countP_cons, flag, same]
  simp only [popped, read]
  cases fate with
  | front => contradiction
  | drop | hold => exact le_refl _
  | back =>
    have unmarked : ¬ ((QueueMessage.full m).id = id ∧
        (QueueMessage.full m).redelivered = false) := fun here =>
      absurd ((backs rfl).symm.trans here.2) (by decide)
    dsimp only
    rw [PriorityQueue.contents_pushBack, Multiset.countP_cons, if_neg unmarked]
    exact le_refl _

/-- A message that goes back to the front is the same to the books, and one that cannot be
    read is gone. -/
theorem unmarked_popTo_le {wal : SegmentCoordinator} {q : QueueState} {fate : Fate}
    (backs : fate = .back → ∀ first m, q.Front env wal first m → m.redelivered = true) :
    (q.popTo env wal fate).unmarked id ≤ q.unmarked id := by
  cases popped : q.messages.popFront with
  | none =>
    unfold QueueState.popTo
    rw [popped]
  | some front =>
    obtain ⟨first, rest⟩ := front
    have contents := PriorityQueue.contents_popFront popped
    cases read : first.resolve env.crc32 wal with
    | error err =>
      refine unmarked_le ?_
      unfold QueueState.popTo
      rw [popped, contents]
      dsimp only
      rw [read]
      cases fate <;> exact Multiset.le_cons_self _ _
    | ok m =>
      by_cases rejected : fate = .front
      · unfold QueueState.popTo QueueState.unmarked
        rw [popped, contents, rejected]
        dsimp only
        rw [read]
        dsimp only
        rw [PriorityQueue.contents_pushFront, Multiset.countP_cons, Multiset.countP_cons,
          ← resolve_redelivered read, ← QueueMessage.resolve_id read]
        exact le_refl _
      · have less := @unmarked_popTo env id m wal q first rest fate popped read rejected fun back =>
          backs back first m ⟨by rw [popped]; rfl, read⟩
        omega

theorem flagsOf_nil {handed : List (String × Message)} (none_out : ∀ m, (name, m) ∉ handed) :
    flagsOf name id handed = [] := by
  rw [List.eq_nil_iff_forall_not_mem]
  intro flag member
  obtain ⟨m, inside, -⟩ := mem_flagsOf member
  exact none_out m inside

theorem flagsOf_single : (flagsOf name id [(name, m)]).count false =
    if m.id = id ∧ m.redelivered = false then 1 else 0 := by
  unfold flagsOf
  by_cases same : m.id = id
  · cases flag : m.redelivered <;> simp [same, flag]
  · simp [same]

theorem unmarked_pop {fate : Fate} (backs : BacksFlagged env s (.pop queue fate)) :
    unmarkedAt (exec env s (.pop queue fate)) name id +
      (flagsOf name id (Effect.handed env expires s (.pop queue fate))).count false ≤
      unmarkedAt s name id := by
  have queues : unmarkedAt (exec env s (.pop queue fate)) name id =
      unmarkedAt (s.modifyQueue queue (·.popTo env s.wal fate)) name id := by
    unfold unmarkedAt
    rw [(exec_memory env s _).1]
    rfl
  by_cases taken : name = queue ∧ fate ≠ .front ∧ ∃ m, m ∈ frontAt env s queue
  · obtain ⟨rfl, taken, m, front⟩ := taken
    obtain ⟨q, _, found, at_front, read⟩ := mem_frontAt front
    obtain ⟨⟨first, rest⟩, popped, rfl⟩ := Option.map_eq_some_iff.mp at_front
    have here : frontAt env s name = [m] := by
      rw [frontAt_of found popped, read]
      rfl
    have less := @unmarked_popTo env id m s.wal q first rest fate popped read taken (by
      rintro rfl
      exact backs m front)
    have counted : (flagsOf name id (Effect.handed env expires s (.pop name fate))).count false ≤
        if m.id = id ∧ m.redelivered = false then 1 else 0 := by
      simp only [Effect.handed, here]
      split
      · exact Nat.zero_le _
      · exact flagsOf_single.le
    rw [queues]
    unfold unmarkedAt
    rw [get?_modifyQueue, if_pos rfl, found, Option.map_some, Option.elim_some, Option.elim_some]
    omega
  · rw [flagsOf_nil, queues]
    · refine unmarked_keeps fun q found => unmarked_popTo_le ?_
      rintro rfl first m front
      exact backs m (mem_frontAt_of found front)
    · intro m member
      obtain ⟨fate', same, thrown, front⟩ := mem_handed member
      cases same
      exact taken ⟨rfl, thrown, m, front⟩

/-- The books of the messages without the flag: they come in or they wait, and each is handed
    out once. -/
theorem unmarked_exec (goesOn : e.restarts = false) (backs : BacksFlagged env s e) :
    unmarkedAt (exec env s e) name id +
      (flagsOf name id (e.handed env expires s)).count false ≤
      unmarkedAt s name id + (idsOf name (e.arrived s)).count id := by
  have still {t : BrokerState} (same : unmarkedAt t name id ≤ unmarkedAt s name id) :
      unmarkedAt t name id + 0 ≤ unmarkedAt s name id + 0 := same
  have queues : unmarkedAt (exec env s e) name id = unmarkedAt (e.inMemory env s) name id := by
    unfold unmarkedAt
    rw [(exec_memory env s e).1]
  rw [queues]
  cases e with
  | books change =>
    refine still ?_
    unfold unmarkedAt
    rw [Effect.inMemory, change.queues]
  | tune queue change =>
    refine still (unmarked_keeps fun q _ => ?_)
    unfold QueueState.unmarked
    rw [change.messages]
  | tuneAll change =>
    refine still ?_
    unfold unmarkedAt QueueState.unmarked
    rw [Effect.inMemory, FinMap.get?_mapVals]
    cases s.queues.get? name with
    | none => exact le_refl _
    | some q =>
      rw [Option.map_some, Option.elim_some, Option.elim_some, change.messages]
  | createQueue queue q logs schema =>
    refine still ?_
    unfold unmarkedAt
    rw [createQueue_queues, FinMap.get?_orInsert]
    split
    · rename_i same
      rw [same]
      cases s.queues.get? queue with
      | none =>
        rw [Option.getD_none, Option.elim_some, QueueState.unmarked, q.messages]
        exact le_refl _
      | some found => exact le_refl _
    · exact le_refl _
  | removeQueue queue =>
    refine still ?_
    unfold unmarkedAt
    rw [Effect.inMemory, FinMap.get?_erase]
    split
    · exact Nat.zero_le _
    · exact le_refl _
  | enqueue queue ctx now =>
    exact unmarked_modifyQueue (s := s) fun q _ =>
      unmarked_push rfl (buildQueueMessage_id _ _ _ _ _)
  | enqueueFull queue exchange routingKey headers body =>
    exact unmarked_modifyQueue (s := s) fun q _ => unmarked_push rfl rfl
  | pushFull queue m =>
    exact unmarked_modifyQueue fun q _ => unmarked_push rfl rfl
  | replicatePublish queue msgId body =>
    exact unmarked_modifyQueue fun q _ => unmarked_push rfl rfl
  | replicateAck queue msgId =>
    refine still (unmarked_keeps fun q _ => unmarked_le ?_)
    rw [contents_withoutId]
    exact Multiset.filter_le _ _
  | pop queue fate =>
    rw [← queues]
    exact unmarked_pop backs
  | popOldest queue =>
    refine still (unmarked_keeps fun q _ => unmarked_le ?_)
    unfold QueueState.dropOldest
    split
    · exact le_refl _
    · rename_i oldest rest popped
      rw [PriorityQueue.contents_popOldest popped]
      exact Multiset.le_cons_self _ _
  | purge queue =>
    refine still (unmarked_keeps fun q _ => unmarked_le ?_)
    exact Multiset.zero_le _
  | settle queue tag | discard queue tag =>
    exact still (unmarked_keeps fun q _ => le_refl _)
  | requeue queue tag counted =>
    refine still (unmarked_keeps fun q found => unmarked_putBack ?_)
    rintro rfl
    exact backs q found
  | restart now auth cluster => contradiction
  | alloc | createExchange | removeExchange | bind | appendBinding | unbind | compact =>
    exact le_refl _

end

structure HandOuts.Tallied (h : HandOuts) : Prop where
  tagged : Tagged h.broker
  held : ∀ name, heldAt h.broker name ≤ h.entered name
  given : ∀ name id, h.flags name id ≠ [] → id ∈ h.entered name
  ready : ∀ name id q qm, (h.entered name).count id ≤ 1 → h.flags name id ≠ [] →
    h.broker.queues.get? name = some q → qm ∈ q.messages.contents → qm.id = id →
    qm.redelivered = true
  books : ∀ name id, unmarkedAt h.broker name id + (h.flags name id).count false ≤
    (h.entered name).count id
  again : ∀ name id, (h.entered name).count id ≤ 1 →
    ∀ flag ∈ (h.flags name id).tail, flag = true

section
variable {env : Env} {h : HandOuts} {e : Effect} {expires : Bool}

theorem flags_step (name : String) (id : UInt64) : (h.step env expires e).flags name id =
    h.flags name id ++ flagsOf name id (e.handed env expires h.broker) := flagsOf_append _ _

theorem entered_le (name : String) : h.entered name ≤ (h.step env expires e).entered name := by
  unfold HandOuts.step
  dsimp only
  split
  · exact Multiset.le_union_left
  · exact Multiset.le_add_right _ _

theorem count_entered_le (name : String) (id : UInt64) :
    (h.entered name).count id ≤ ((h.step env expires e).entered name).count id :=
  Multiset.count_le_of_le id (entered_le name)

theorem held_step (tallied : h.Tallied) (name : String) :
    heldAt (h.step env expires e).broker name ≤ (h.step env expires e).entered name := by
  cases restarts : e.restarts with
  | true =>
    unfold HandOuts.step
    simp only [restarts, if_true]
    exact Multiset.le_union_right
  | false =>
    unfold HandOuts.step
    simp only [restarts]
    have books := held_exec env tallied.tagged (goesOn_of_restarts restarts) name
    refine (Multiset.le_add_right _ _).trans (books.le.trans ?_)
    exact add_le_add_left (tallied.held name) _

theorem given_step (tallied : h.Tallied) (name : String) (id : UInt64)
    (some_out : (h.step env expires e).flags name id ≠ []) :
    id ∈ (h.step env expires e).entered name := by
  refine Multiset.mem_of_le (entered_le name) ?_
  by_cases before : h.flags name id = []
  · rw [flags_step, before, List.nil_append] at some_out
    obtain ⟨flag, member⟩ := List.exists_mem_of_ne_nil _ some_out
    obtain ⟨m, handed, rfl, -⟩ := mem_flagsOf member
    obtain ⟨fate, -, -, at_front⟩ := mem_handed handed
    obtain ⟨q, first, found, front⟩ := mem_frontAt at_front
    refine Multiset.mem_of_le (tallied.held name) ?_
    rw [QueueMessage.resolve_id front.2]
    unfold heldAt
    rw [found]
    exact Multiset.mem_add.mpr (.inl (Multiset.mem_map_of_mem _ front.mem))
  · exact tallied.given name id before

theorem single_front {q : QueueState} {first : QueueMessage} {rest : PriorityQueue}
    {id : UInt64} (single : q.held.count id ≤ 1) (popped : q.messages.popFront = some (first, rest))
    (here : first.id = id) {qm : QueueMessage} (member : qm ∈ rest.contents) : qm.id ≠ id := by
  intro same
  have two : 2 ≤ q.held.count id := by
    unfold QueueState.held
    rw [PriorityQueue.contents_popFront popped, Multiset.map_cons, Multiset.cons_add, here,
      Multiset.count_cons_self, Multiset.count_add]
    have one := Multiset.one_le_count_iff_mem.mpr (Multiset.mem_map_of_mem QueueMessage.id member)
    rw [same] at one
    omega
  omega

theorem popTo_flagged {wal : SegmentCoordinator} {q : QueueState} {first : QueueMessage}
    {m : Message} {fate : Fate} (front : q.Front env wal first m) (taken : fate ≠ .front)
    (backs : fate = .back → m.redelivered = true) (single : q.held.count m.id ≤ 1)
    {qm : QueueMessage} (member : qm ∈ (q.popTo env wal fate).messages.contents)
    (same : qm.id = m.id) : qm.redelivered = true := by
  obtain ⟨at_front, read⟩ := front
  obtain ⟨⟨_, rest⟩, popped, rfl⟩ := Option.map_eq_some_iff.mp at_front
  have alone (inside : qm ∈ rest.contents) : qm.redelivered = true :=
    absurd same (single_front single popped (QueueMessage.resolve_id read).symm inside)
  unfold QueueState.popTo at member
  rw [popped] at member
  dsimp only at member
  rw [read] at member
  cases fate with
  | front => contradiction
  | drop | hold => exact alone member
  | back =>
    dsimp only at member
    rw [PriorityQueue.contents_pushBack, Multiset.mem_cons] at member
    cases member with
    | inl back =>
      rw [back]
      exact backs rfl
    | inr behind => exact alone behind

theorem arrived_entered {name : String} {id : UInt64} (arrives : (name, id) ∈ e.arrived h.broker) :
    (h.entered name).count id < ((h.step env expires e).entered name).count id ∧
      e.handed env expires h.broker = [] := by
  have goesOn : e.restarts = false ∧ e.handed env expires h.broker = [] := by
    cases e with
    | enqueue | enqueueFull | pushFull | replicatePublish => exact ⟨rfl, rfl⟩
    | _ => contradiction
  refine ⟨?_, goesOn.2⟩
  unfold HandOuts.step
  simp only [goesOn.1]
  change _ < (h.entered name + _).count id
  rw [Multiset.count_add]
  have one := Multiset.one_le_count_iff_mem.mpr (Multiset.mem_coe.mpr (mem_idsOf.mpr arrives))
  omega

theorem ready_step (tallied : h.Tallied) (backs : BacksFlagged env h.broker e) {name : String}
    {id : UInt64} {q' : QueueState} {qm : QueueMessage}
    (single : ((h.step env expires e).entered name).count id ≤ 1)
    (some_out : (h.step env expires e).flags name id ≠ [])
    (found : (h.step env expires e).broker.queues.get? name = some q')
    (member : qm ∈ q'.messages.contents) (same : qm.id = id) : qm.redelivered = true := by
  have before := (count_entered_le name id).trans single
  by_contra unflagged
  rw [Bool.not_eq_true] at unflagged
  have none_before {q : QueueState} {qm' : QueueMessage}
      (present : h.broker.queues.get? name = some q) (inside : qm' ∈ q.messages.contents)
      (here : qm'.id = id) (bare : qm'.redelivered = false) : h.flags name id = [] := by
    by_contra given
    have flagged := tallied.ready name id q qm' before given present inside here
    exact absurd (flagged.symm.trans bare) (by decide)
  cases arrives_exec found member with
  | inl old =>
    obtain ⟨q, present, inside⟩ := old
    -- so the step hands out the message, and it is the only one
    rw [flags_step, none_before present inside same unflagged, List.nil_append] at some_out
    obtain ⟨flag, given⟩ := List.exists_mem_of_ne_nil _ some_out
    obtain ⟨m, handed, here, -⟩ := mem_flagsOf given
    obtain ⟨fate, rfl, taken, at_front⟩ := mem_handed handed
    obtain ⟨q₁, first, there, front⟩ := mem_frontAt at_front
    cases present.symm.trans there
    have left : q' = q.popTo env h.broker.wal fate := by
      have moved := found
      change (exec env h.broker (.pop name fate)).queues.get? name = some q' at moved
      rw [(exec_memory env h.broker _).1, Effect.inMemory, get?_modifyQueue, if_pos rfl,
        present] at moved
      exact (Option.some.inj moved).symm
    have held : q.held.count m.id ≤ 1 := by
      have most := Multiset.count_le_of_le id (tallied.held name)
      unfold heldAt at most
      rw [present] at most
      rw [here]
      exact most.trans before
    have flagged := popTo_flagged front taken (fun back => by
      subst back
      exact backs m at_front) held (left ▸ member) (same.trans here.symm)
    exact absurd (flagged.symm.trans unflagged) (by decide)
  | inr adds =>
    cases adds_unflagged adds backs unflagged with
    | inl arrives =>
      rw [same] at arrives
      obtain ⟨more, none_out⟩ := @arrived_entered env h e expires name id arrives
      rw [flags_step, none_out] at some_out
      have known := tallied.given name id (by simpa [flagsOf] using some_out)
      have one := Multiset.one_le_count_iff_mem.mpr known
      omega
    | inr rejected =>
      obtain ⟨rfl, q, first, present, inside, here, bare⟩ := rejected
      rw [flags_step, none_before present inside (here.trans same) bare] at some_out
      exact some_out rfl

theorem again_step (tallied : h.Tallied) {name : String} {id : UInt64}
    (single : ((h.step env expires e).entered name).count id ≤ 1) :
    ∀ flag ∈ ((h.step env expires e).flags name id).tail, flag = true := by
  have before := (count_entered_le name id).trans single
  rw [flags_step]
  intro flag member
  by_cases none_before : h.flags name id = []
  · rw [none_before, List.nil_append] at member
    have one : (flagsOf name id (e.handed env expires h.broker)).length ≤ 1 := by
      unfold flagsOf
      rw [List.length_map]
      exact (List.length_filter_le _ _).trans handed_length
    have no_more : (flagsOf name id (e.handed env expires h.broker)).tail = [] := by
      rw [← List.length_eq_zero_iff, List.length_tail]
      omega
    rw [no_more] at member
    contradiction
  · rw [List.tail_append_of_ne_nil none_before] at member
    cases List.mem_append.mp member with
    | inl old => exact tallied.again name id before flag old
    | inr new =>
      obtain ⟨m, handed, here, rfl⟩ := mem_flagsOf new
      obtain ⟨fate, -, -, at_front⟩ := mem_handed handed
      obtain ⟨q, first, found, front⟩ := mem_frontAt at_front
      rw [resolve_redelivered front.2]
      refine tallied.ready name id q first before none_before found front.mem ?_
      rw [← QueueMessage.resolve_id front.2]
      exact here

theorem unmarked_restart {s : BrokerState} {now : Instant} {auth : AuthBackend}
    {cluster : Option ClusterCoordinator} {name : String} {id : UInt64} :
    unmarkedAt (exec env s (.restart now auth cluster)) name id = 0 := by
  unfold unmarkedAt
  cases found : (exec env s (.restart now auth cluster)).queues.get? name with
  | none => rfl
  | some q =>
    rw [Option.elim_some, QueueState.unmarked, Multiset.countP_eq_zero]
    intro qm member unmarked
    exact absurd ((restored_flagged found member).symm.trans unmarked.2) (by decide)

theorem books_step (tallied : h.Tallied) (backs : BacksFlagged env h.broker e) (name : String)
    (id : UInt64) : unmarkedAt (h.step env expires e).broker name id +
      ((h.step env expires e).flags name id).count false ≤
      ((h.step env expires e).entered name).count id := by
  have before := tallied.books name id
  rw [flags_step, List.count_append]
  cases restarts : e.restarts with
  | false =>
    have moved := @unmarked_exec env h.broker e expires name id restarts backs
    have entered : (h.step env expires e).entered name =
        h.entered name + (idsOf name (e.arrived h.broker) : Multiset UInt64) := by
      unfold HandOuts.step
      simp only [restarts]
      rfl
    rw [entered, Multiset.count_add, Multiset.coe_count]
    change unmarkedAt (exec env h.broker e) name id + _ ≤ _
    omega
  | true =>
    cases e with
    | restart now auth cluster =>
      have more := @count_entered_le env h (.restart now auth cluster) expires name id
      rw [show unmarkedAt (h.step env expires (.restart now auth cluster)).broker name id = 0 from
        unmarked_restart]
      change 0 + (_ + 0) ≤ _
      omega
    | _ => contradiction

theorem tallied_step (tallied : h.Tallied) (backs : BacksFlagged env h.broker e) :
    (h.step env expires e).Tallied where
  tagged := tagged_exec tallied.tagged
  held := held_step tallied
  given := given_step tallied
  ready _ _ _ _ single some_out found member same :=
    ready_step tallied backs single some_out found member same
  books := books_step tallied backs
  again _ _ := again_step tallied

theorem tallied_start (env : Env) (auth : AuthBackend) (cluster : Option ClusterCoordinator) :
    (HandOuts.start env auth cluster).Tallied where
  tagged _ _ found := by contradiction
  held _ := le_refl _
  given _ _ some_out := absurd rfl some_out
  ready _ _ _ _ _ some_out := absurd rfl some_out
  books _ _ := le_refl _
  again _ _ _ _ member := by contradiction

theorem tallied_serve {op : Op} (tallied : h.Tallied)
    (backs : Run.Along (exec env) (BacksFlagged env) h.broker
      ((handle op : Act env (List Frame)).steps h.broker)) : (h.serve env op).Tallied := by
  refine Run.invariant (fun _ => HandOuts.Tallied) tallied
    (fun _ _ _ backs tallied => tallied_step tallied backs) ?_
  exact (Run.along_map (fun _ _ => rfl) h _).mpr backs

end

/-- In every run in which what comes back by a disconnect or by the management interface has
    the flag, everything that is handed out again has it, in every state on the way. -/
theorem repeats_flagged (env : Env) (auth : AuthBackend) (cluster : Option ClusterCoordinator)
    (ops : List Op) (backs : Throughout env auth cluster (BacksFlagged env) ops) :
    ∀ before after, ops = before ++ after →
      (HandOuts.after env auth cluster before).RepeatsFlagged := by
  rintro before after rfl
  have along := (Run.along_append.mp ((along_serve _ _).mp backs.along)).1
  have tallied : (HandOuts.after env auth cluster before).Tallied := by
    refine Run.invariant (fun _ => HandOuts.Tallied) (tallied_start env auth cluster)
      (fun _ _ _ backs tallied => tallied_serve tallied backs) ?_
    exact (Run.along_map broker_serve (HandOuts.start env auth cluster) before).mpr along
  refine ⟨tallied.again, fun name id => ?_⟩
  have books := tallied.books name id
  omega

/-- A message is delivered and rejected back, and taken by Basic.Get. -/
def rejectedBack : List Op :=
  session "q" ++ [.basicConsume 1 1 ⟨"q", "t", false, false, false, []⟩, publishTo "q" true [1],
    .deliverRound "q" [true] 0, .basicReject 1 1 1 true, .basicGet 1 "q" false,
    .disconnect 1]

theorem repeats_flagged_rejected :
    (HandOuts.after (plainEnv 64 1) guestOnly none rejectedBack).flags "q" 1 = [false, true] ∧
      (HandOuts.after (plainEnv 64 1) guestOnly none rejectedBack).RepeatsFlagged := by
  refine ⟨by decide +kernel, ?_⟩
  exact repeats_flagged (plainEnv 64 1) guestOnly none rejectedBack (by decide +kernel)
    rejectedBack [] (List.append_nil _).symm

/-- A consumer goes with its delivery, and the next one gets the message as if it were new. -/
def lostConsumer : List Op :=
  session "q" ++ [.basicConsume 1 1 ⟨"q", "t", false, false, false, []⟩, publishTo "q" false [1],
    .deliverRound "q" [true] 0, .disconnect 1, .connect "127.0.0.1:50001" "guest" "/",
    .channelOpen 2 1, .basicConsume 2 1 ⟨"q", "u", false, false, false, []⟩,
    .deliverRound "q" [true] 0]

theorem redelivered_unflagged :
    let h := HandOuts.after (plainEnv 64 1) guestOnly none lostConsumer
    h.flags "q" 1 = [false, false] ∧ ¬ h.RepeatsFlagged := by
  intro h
  have flags : h.flags "q" 1 = [false, false] := by decide +kernel
  refine ⟨flags, fun repeats => ?_⟩
  have once := repeats.once "q" 1
  rw [flags] at once
  exact absurd once (by decide +kernel)

end RocketmqBroker
