import RocketmqBroker.Broker.Footprint
import RocketmqBroker.Delivery.Consumers
import RocketmqBroker.Durability.Identity

/-!
Expired messages. Nothing but the sweep looks at the expiration of a message, and the
sweep stops at the first message of a queue that is not expired. What it takes is gone
for good; what expires later or stands further behind is handed out as any other.
-/
namespace RocketmqBroker
open Run.Program

structure Swept (now : Instant) (q q' : QueueState) : Prop where
  ready : q'.messages.ready = q.messages.ready.dropWhile (·.isExpired now)
  rest : q' = { q with messages := q'.messages }

def Op.drawsFrom (queue : String) : Op → Bool
  | .deliverRound name _ _ => name == queue
  | .basicGet _ name _ => name == queue
  | _ => false

def Frame.messageId : Frame → Option UInt64
  | .basicDeliver _ _ _ m => some m.id
  | .basicGetOk tag _ _ _ _ _ => some tag
  | _ => none

theorem messageId_closeFrames {code classId methodId : Nat} {text : String} {f : Frame}
    (member : f ∈ closeFrames code text classId methodId) : f.messageId = none := by
  rw [mem_closeFrames member]
  rfl

def Effect.BringsNothing (e : Effect) : Prop := e.restarts = false ∧ ∀ s, e.arrived s = []

section
variable {env : Env} {s : BrokerState} {queue : String} {now : Instant}

theorem ready_of_popFront_none {q : PriorityQueue} (h : q.popFront = none) : q.ready = [] := by
  have empty := PriorityQueue.popFront_none h
  rw [PriorityQueue.contents_eq_ready] at empty
  exact (Multiset.coe_eq_zero _).mp empty

theorem get?_pop_drop (env : Env) {q : QueueState} {m : QueueMessage} {rest : PriorityQueue}
    (found : s.queues.get? queue = some q) (popped : q.messages.popFront = some (m, rest)) :
    (exec env s (.pop queue .drop)).queues.get? queue = some { q with messages := rest } := by
  refine (get?_modifyQueue_of found _).trans ?_
  unfold QueueState.popTo
  rw [popped]

theorem dropExpired_sweeps (env : Env) (now : Instant) (fuel : Nat) {q : QueueState}
    (found : s.queues.get? queue = some q) (enough : q.messages.ready.length ≤ fuel) :
    ∃ q', ((dropExpired queue now fuel : Act env Unit).final s).queues.get? queue = some q' ∧
      Swept now q q' := by
  induction fuel generalizing s q with
  | zero =>
    have empty := List.length_eq_zero_iff.mp (Nat.le_zero.mp enough)
    exact ⟨q, found, by rw [empty]; rfl, rfl⟩
  | succ fuel ih =>
    unfold dropExpired
    rw [final_bind]
    change ∃ q', (final (if ((s.queues.get? queue).bind (·.messages.peekFront)).any
      (·.isExpired now) then _ else _) s).queues.get? queue = some q' ∧ _
    rw [found, Option.bind_some]
    cases popped : q.messages.popFront with
    | none =>
      have empty := ready_of_popFront_none popped
      have peeked : q.messages.peekFront = none := by
        unfold PriorityQueue.peekFront
        rw [popped]
        rfl
      rw [peeked]
      exact ⟨q, found, by rw [empty]; rfl, rfl⟩
    | some front =>
      obtain ⟨m, rest⟩ := front
      have ready := PriorityQueue.ready_popFront popped
      have peeked : q.messages.peekFront = some m := by
        unfold PriorityQueue.peekFront
        rw [popped]
        rfl
      rw [peeked, Option.any_some]
      cases expired : m.isExpired now with
      | false =>
        refine ⟨q, found, ?_, rfl⟩
        rw [ready, List.dropWhile_cons_of_neg (by simp [expired])]
      | true =>
        have shorter : rest.ready.length ≤ fuel := by
          rw [ready, List.length_cons] at enough
          omega
        obtain ⟨q', there, swept⟩ := ih (get?_pop_drop env found popped) shorter
        refine ⟨q', ?_, ?_, swept.rest⟩
        · rw [if_pos rfl, final_bind]
          exact there
        · rw [swept.ready, ready, List.dropWhile_cons_of_pos expired]

theorem dropExpired_others {name : String} (other : name ≠ queue) (fuel : Nat) :
    Leaves (fun s : BrokerState => s.queues.get? name)
      (dropExpired queue now fuel : Act env Unit) := by
  induction fuel with
  | zero => exact leaves_pure _
  | succ fuel ih =>
    refine (leaves_read _).bind fun expired => ?_
    split
    · refine Leaves.bind (leaves_perform fun s => ?_) fun _ => ih
      change (s.modifyQueue queue _).queues.get? name = _
      rw [get?_modifyQueue, if_neg other]
    · exact leaves_pure _

theorem forM_dropExpired (env : Env) (now : Instant) (queues : List (String × Nat))
    (once : (queues.map Prod.fst).Nodup)
    (enough : ∀ e ∈ queues, ∀ q, s.queues.get? e.1 = some q → q.messages.ready.length ≤ e.2)
    {name : String} {q : QueueState} (found : s.queues.get? name = some q) :
    ∃ q', ((queues.forM fun e => dropExpired e.1 now e.2 : Act env PUnit).final s).queues.get? name
        = some q' ∧
      if name ∈ queues.map Prod.fst then Swept now q q' else q' = q := by
  induction queues generalizing s q with
  | nil => exact ⟨q, found, by simp⟩
  | cons e es ih =>
    obtain ⟨fresh, once⟩ := List.nodup_cons.mp once
    change ∃ q', ((dropExpired e.1 now e.2 >>= fun _ => es.forM fun e =>
      dropExpired e.1 now e.2 : Act env PUnit).final s).queues.get? name = some q' ∧ _
    rw [final_bind]
    have others (other : String) (apart : other ≠ e.1) :
        ((dropExpired e.1 now e.2 : Act env Unit).final s).queues.get? other =
          s.queues.get? other := dropExpired_others apart e.2 s
    have enough' : ∀ e' ∈ es, ∀ q, ((dropExpired e.1 now e.2 : Act env Unit).final s).queues.get?
        e'.1 = some q → q.messages.ready.length ≤ e'.2 := by
      intro e' member q there
      rw [others e'.1 fun same => fresh (List.mem_map.mpr ⟨e', member, same⟩)] at there
      exact enough e' (List.mem_cons_of_mem _ member) q there
    by_cases here : name = e.1
    · subst here
      obtain ⟨q₁, there, swept⟩ := dropExpired_sweeps env now e.2 found
        (enough e List.mem_cons_self q found)
      obtain ⟨q', last, same⟩ := ih once enough' there
      rw [if_neg fresh] at same
      have first : e.1 ∈ e.1 :: es.map Prod.fst := List.mem_cons_self
      refine ⟨q', last, ?_⟩
      rw [List.map_cons, if_pos first, same]
      exact swept
    · obtain ⟨q', last, swept⟩ := ih once enough' ((others name here).trans found)
      refine ⟨q', last, ?_⟩
      simpa only [List.map_cons, List.mem_cons, here, false_or] using swept

theorem messageTtlTask_sweeps (env : Env) (now : Instant) {name : String} {q : QueueState}
    (found : s.queues.get? name = some q) :
    ∃ q', (served env s (.messageTtlTask now)).queues.get? name = some q' ∧ Swept now q q' := by
  let queues := s.queues.entries.map fun e => (e.1, e.2.messages.len)
  have names : queues.map Prod.fst = s.queues.keys := List.map_map
  have whole : served env s (.messageTtlTask now) =
      (queues.forM fun e => dropExpired e.1 now e.2 : Act env PUnit).final s := by
    change (messageTtlTask now >>= fun _ => pure [] : Act env (List Frame)).final s = _
    rw [final_bind, final_pure]
    rfl
  have enough : ∀ e ∈ queues, ∀ q, s.queues.get? e.1 = some q →
      q.messages.ready.length ≤ e.2 := by
    intro e member q there
    obtain ⟨entry, listed, rfl⟩ := List.mem_map.mp member
    obtain rfl := Option.some.inj (there.symm.trans (FinMap.get?_eq_some_iff_mem.mpr listed))
    rw [PriorityQueue.len_eq_card, PriorityQueue.contents_eq_ready]
    exact Nat.le_refl _
  obtain ⟨q', last, swept⟩ := forM_dropExpired env now queues
    (names ▸ FinMap.keys_nodup _) enough found
  rw [if_pos (names ▸ FinMap.mem_keys_iff.mpr ⟨q, found⟩)] at swept
  exact ⟨q', whole ▸ last, swept⟩

def Keeps (queue : String) (bound : Multiset UInt64) (s : BrokerState) : Prop :=
  Tagged s ∧ heldAt s queue ≤ bound

theorem keeps_step {e : Effect} {bound : Multiset UInt64} (nothing : e.BringsNothing)
    (keeps : Keeps queue bound s) : Keeps queue bound (exec env s e) := by
  refine ⟨tagged_exec keeps.1, ?_⟩
  have still : heldAt (exec env s e) queue ≤ _ := heldAt_le_exec keeps.1 nothing.1 queue
  rw [nothing.2 s] at still
  exact (still.trans (by simp [idsOf])).trans keeps.2

theorem peeked_held {q : QueueState} {qm : QueueMessage} (found : s.queues.get? queue = some q)
    (peeked : q.messages.peekFront = some qm) : qm.id ∈ heldAt s queue := by
  obtain ⟨⟨_, rest⟩, popped, rfl⟩ := Option.map_eq_some_iff.mp peeked
  rw [heldAt, found]
  refine Multiset.mem_add.mpr (.inl ?_)
  rw [PriorityQueue.contents_popFront popped, Multiset.map_cons]
  exact Multiset.mem_cons_self _ _

theorem basicGet_held (connId : UInt64) (noAck : Bool) :
    ∀ id ∈ (answer env s (.basicGet connId queue noAck)).filterMap Frame.messageId,
      id ∈ heldAt s queue := by
  change ∀ id ∈ List.filterMap _ ((basicGet connId queue noAck : Act env (List Frame)).result s), _
  unfold basicGet
  rw [result_bind, result_look, final_look]
  cases found : s.queues.get? queue with
  | none =>
    intro id member
    obtain ⟨f, closes, carries⟩ := List.mem_filterMap.mp member
    have close : f ∈ closeFrames notFound "NOT_FOUND - no such queue" classBasic methodBasicGet :=
      closes
    rw [messageId_closeFrames close] at carries
    cases carries
  | some q =>
    dsimp only
    cases popped : q.messages.popFront with
    | none => simp [Frame.messageId]
    | some front =>
      obtain ⟨qm, rest⟩ := front
      dsimp only
      rw [result_bind, result_look, final_look]
      cases resolved : qm.resolve env.crc32 s.wal with
      | error err =>
        rw [result_bind]
        simp [Frame.messageId]
      | ok m =>
        have peeked : q.messages.peekFront = some qm := by
          unfold PriorityQueue.peekFront
          rw [popped]
          rfl
        have held : m.id ∈ heldAt s queue := by
          rw [QueueMessage.resolve_id resolved]
          exact peeked_held found peeked
        intro id member
        have same : id = m.id := by
          cases noAck with
          | true | false => exact List.mem_singleton.mp member
        rw [same]
        exact held

variable {bound : Multiset UInt64}

theorem nextReadyConsumer_keeps (consumers : List Consumer) :
    Triple (fun _ _ => True) (Keeps queue bound)
      (nextReadyConsumer queue consumers : Act env (Option Consumer)) fun _ =>
        Keeps queue bound := by
  have takes : Takes Effect.BringsNothing
      (nextReadyConsumer queue consumers : Act env (Option Consumer)) :=
    (takes_read _).bind fun _ => (takes_read _).bind fun _ =>
      (takes_perform ⟨rfl, fun _ => rfl⟩).bind fun _ => takes_pure _
  exact takes.triple fun _ _ nothing keeps => keeps_step nothing keeps

theorem trackInflight_keeps (c : Consumer) (tag : UInt64) (now : Instant) :
    Triple (fun _ _ => True) (Keeps queue bound)
      (trackInflight queue c tag now : Act env Unit) fun _ => Keeps queue bound := by
  have takes : Takes Effect.BringsNothing (trackInflight queue c tag now : Act env Unit) :=
    (takes_perform ⟨rfl, fun _ => rfl⟩).bind fun _ => (takes_read _).bind fun _ =>
      Takes.bind (takes_perform ⟨rfl, fun _ => rfl⟩) fun _ =>
        (takes_perform ⟨rfl, fun _ => rfl⟩).bind fun _ => takes_perform ⟨rfl, fun _ => rfl⟩
  exact takes.triple fun _ _ nothing keeps => keeps_step nothing keeps

theorem deliverOne_held (consumers : List Consumer) (taken : Bool) (now : Instant) :
    Triple (fun _ _ => True) (Keeps queue bound)
      (deliverOne queue consumers taken now : Act env (Bool × Bool × List Frame)) fun r t =>
        Keeps queue bound t ∧ ∀ id ∈ r.2.2.filterMap Frame.messageId, id ∈ bound := by
  unfold deliverOne
  refine Triple.bind (R := fun peeked t => Keeps queue bound t ∧
    ∀ qm ∈ peeked, QueueMessage.id qm ∈ bound) (triple_read fun s keeps => ⟨keeps, ?_⟩)
    fun peeked => ?_
  · intro qm peeked
    obtain ⟨q, found, front⟩ := Option.bind_eq_some_iff.mp peeked
    exact Multiset.mem_of_le keeps.2 (peeked_held found front)
  cases peeked with
  | none => exact triple_pure fun s h => ⟨h.1, by simp⟩
  | some qm =>
    dsimp only
    refine Triple.bind (R := fun _ t => Keeps queue bound t ∧ qm.id ∈ bound) ?_ fun picked => ?_
    · intro t facts along
      exact ⟨nextReadyConsumer_keeps consumers t facts.1 along, facts.2 qm rfl⟩
    cases picked with
    | none => exact triple_pure fun s h => ⟨h.1, by simp⟩
    | some c =>
      dsimp only
      refine Triple.bind (R := fun resolved t => Keeps queue bound t ∧
        ∀ m, resolved = .ok m → Message.id m ∈ bound) (triple_read fun s h => ⟨h.1, ?_⟩)
        fun resolved => ?_
      · intro m resolved
        rw [QueueMessage.resolve_id resolved]
        exact h.2
      cases resolved with
      | error err =>
        refine Triple.bind (R := fun _ => Keeps queue bound)
          (triple_perform fun s h _ => keeps_step ⟨rfl, fun _ => rfl⟩ h.1) fun _ => ?_
        exact triple_pure fun s keeps => ⟨keeps, by simp⟩
      | ok m =>
        dsimp only
        refine Triple.bind (R := fun _ t => Keeps queue bound t ∧ m.id ∈ bound)
          (triple_read fun s h => ⟨h.1, h.2 m rfl⟩) fun sent => ?_
        split
        · refine Triple.bind (R := fun _ => Keeps queue bound)
            (triple_perform fun s h _ => keeps_step ⟨rfl, fun _ => rfl⟩ h.1) fun _ => ?_
          exact triple_pure fun s keeps => ⟨keeps, by simp⟩
        · have handed (s : BrokerState) (h : Keeps queue bound s ∧ m.id ∈ bound) :
              Keeps queue bound s ∧ ∀ id ∈ List.filterMap Frame.messageId
                [.basicDeliver c.connId c.channel c.tag m], id ∈ bound := by
            refine ⟨h.1, fun id member => ?_⟩
            rw [List.mem_singleton.mp member]
            exact h.2
          split
          · exact Triple.bind (R := fun _ t => Keeps queue bound t ∧ m.id ∈ bound)
              (triple_perform fun s h _ => ⟨keeps_step ⟨rfl, fun _ => rfl⟩ h.1, h.2⟩)
              fun _ => triple_pure handed
          · refine Triple.bind (R := fun _ t => Keeps queue bound t ∧ m.id ∈ bound) ?_
              fun _ => triple_pure handed
            intro t h along
            exact ⟨trackInflight_keeps c m.id now t h.1 along, h.2⟩

theorem deliverQueue_held (consumers : List Consumer) (now : Instant) (answers : List Bool)
    (delivered : Nat) :
    Triple (fun _ _ => True) (Keeps queue bound)
      (deliverQueue queue consumers now answers delivered : Act env (List Frame)) fun frames _ =>
        ∀ id ∈ frames.filterMap Frame.messageId, id ∈ bound := by
  induction answers generalizing delivered with
  | nil => exact triple_pure fun s keeps => by simp
  | cons taken answers ih =>
    unfold deliverQueue
    refine Triple.bind (deliverOne_held consumers taken now) fun r => ?_
    obtain ⟨goesOn, counts, frames⟩ := r
    dsimp only
    generalize (if counts = true then delivered + 1 else delivered) = total
    split
    · refine Triple.bind (R := fun more _ => (∀ id ∈ frames.filterMap Frame.messageId, id ∈ bound) ∧
        ∀ id ∈ List.filterMap Frame.messageId more, id ∈ bound) ?_ fun more => ?_
      · intro t h along
        exact ⟨h.2, ih _ t h.1 along⟩
      · refine triple_pure fun s h => ?_
        rw [List.filterMap_append]
        intro id member
        cases List.mem_append.mp member with
        | inl first => exact h.1 id first
        | inr later => exact h.2 id later
    · exact triple_pure fun s h => h.2

/-- What is handed out of a queue was in it. -/
theorem drawn_held (tagged : Tagged s) {op : Op} (draws : op.drawsFrom queue = true) :
    ∀ id ∈ (answer env s op).filterMap Frame.messageId, id ∈ heldAt s queue := by
  cases op with
  | basicGet connId name noAck =>
    obtain rfl := eq_of_beq draws
    exact basicGet_held connId noAck
  | deliverRound name answers now =>
    obtain rfl := eq_of_beq draws
    have round : Triple (fun _ _ => True) (· = s)
        (deliverRound name answers now : Act env (List Frame)) fun frames _ =>
          ∀ id ∈ frames.filterMap Frame.messageId, id ∈ heldAt s name := by
      unfold deliverRound
      refine Triple.bind (R := fun _ t => t = s) (triple_read fun _ h => h) fun found => ?_
      split
      · exact triple_pure fun _ _ => by simp
      · split
        · exact triple_pure fun _ _ => by simp
        · rintro t rfl along
          exact deliverQueue_held _ now answers 0 t ⟨tagged, le_refl _⟩ along
    exact round s rfl (Run.along_true _ _)
  | _ => cases draws

end

def NoneComes (queue : String) (id : UInt64) (s : BrokerState) (e : Effect) : Prop :=
  e.restarts = false ∧ (queue, id) ∉ e.arrived s

instance (queue : String) (id : UInt64) (s : BrokerState) (e : Effect) :
    Decidable (NoneComes queue id s e) := inferInstanceAs (Decidable (_ ∧ _))

section
variable {env : Env} {s : BrokerState} {queue : String} {id : UInt64}

theorem tagged_run (tagged : Tagged s) (es : List Effect) : Tagged (Run.run (exec env) s es) :=
  Run.invariant (fun _ => Tagged) tagged (fun _ _ _ _ tagged => tagged_exec tagged)
    (Run.along_true s es)

theorem tagged_reached (env : Env) (auth : AuthBackend) (cluster : Option ClusterCoordinator)
    (ops : List Op) : Tagged (reached env auth cluster ops) :=
  tagged_run (fun _ _ found => by cases found) _

theorem held_before (tagged : Tagged s) {es : List Effect}
    (none : Run.Along (exec env) (NoneComes queue id) s es)
    (held : id ∈ heldAt (Run.run (exec env) s es) queue) : id ∈ heldAt s queue := by
  have start : Tagged s ∧ (id ∈ heldAt s queue → id ∈ heldAt s queue) := ⟨tagged, fun h => h⟩
  refine (Run.invariant (fun _ t => Tagged t ∧ (id ∈ heldAt t queue → id ∈ heldAt s queue)) start
    (fun _ t e comes inv => ⟨tagged_exec inv.1, fun there => ?_⟩) none).2 held
  cases mem_heldAt_exec inv.1 comes.1 there with
  | inl old => exact inv.2 old
  | inr new => exact absurd new comes.2

theorem sweep_brings_nothing (now : Instant) :
    Takes Effect.BringsNothing (handle (.messageTtlTask now) : Act env (List Frame)) :=
  (takes_handle (.messageTtlTask now)).mono fun e may => by
    cases e with
    | books | pop => exact ⟨rfl, fun _ => rfl⟩
    | _ => cases may

theorem held_swept (tagged : Tagged s) {now : Instant}
    (held : id ∈ heldAt (served env s (.messageTtlTask now)) queue) :
    ∃ q, s.queues.get? queue = some q ∧ (q.inflight.contains id = true ∨
      ∃ m ∈ q.messages.ready.dropWhile (·.isExpired now), m.id = id) := by
  have fewer : Keeps queue (heldAt s queue) (served env s (.messageTtlTask now)) :=
    (sweep_brings_nothing now).triple
      (fun _ _ nothing keeps => keeps_step nothing keeps) s ⟨tagged, le_refl _⟩ (Run.along_true _ _)
  have before := Multiset.mem_of_le fewer.2 held
  cases found : s.queues.get? queue with
  | none =>
    rw [heldAt, found] at before
    cases before
  | some q =>
    obtain ⟨q', there, swept⟩ := messageTtlTask_sweeps env now found
    refine ⟨q, rfl, ?_⟩
    have inflight : q'.inflight = q.inflight := by rw [swept.rest]
    rw [heldAt, there] at held
    dsimp only at held
    rw [QueueState.held_eq_ids, QueueState.readyIds, swept.ready, inflight, Multiset.mem_coe,
      List.mem_append] at held
    cases held with
    | inl ready => exact .inr (List.mem_map.mp ready)
    | inr flying => exact .inl (FinMap.contains_iff_mem_keys.mpr flying)

end

/-- A sweep takes from the front of every queue what is expired, up to the first message
    that is not, and what it took is not handed out any more: a message handed out later
    was in flight at the sweep, or ready and not behind expired messages only, or has come
    since. -/
theorem swept_for_good (env : Env) (auth : AuthBackend) (cluster : Option ClusterCoordinator)
    (before : List Op) (now : Instant) :
    let s := reached env auth cluster before
    let swept := served env s (.messageTtlTask now)
    (∀ name q, s.queues.get? name = some q →
      ∃ q', swept.queues.get? name = some q' ∧ Swept now q q') ∧
    ∀ (mid : List Op) (op : Op) (queue : String) (id : UInt64),
      Run.Along (exec env) (NoneComes queue id) swept
        ((serve mid : Act env (List (List Frame))).steps swept) →
      op.drawsFrom queue = true →
      id ∈ (answer env (Run.run (served env) swept mid) op).filterMap Frame.messageId →
      ∃ q, s.queues.get? queue = some q ∧ (q.inflight.contains id = true ∨
        ∃ m ∈ q.messages.ready.dropWhile (·.isExpired now), m.id = id) := by
  intro s swept
  have tagged : Tagged s := tagged_reached env auth cluster before
  refine ⟨fun name q found => messageTtlTask_sweeps env now found, ?_⟩
  intro mid op queue id none draws handed
  have taggedSwept : Tagged swept := tagged_run tagged _
  rw [← final_serve] at handed
  have held := drawn_held (tagged_run taggedSwept _) draws id handed
  exact held_swept tagged (held_before taggedSwept none held)

def publishFor (queue : String) (millis : Option String) (body : Bytes) (now : Instant) : Op :=
  .basicPublish 1 1 ⟨"", queue, false, { BasicProperties.default with expiration := millis }, body⟩
    now

/-- An expired message in front of one that is not. -/
def expiredFirst : List Op :=
  session "q" ++ [publishFor "q" (some "10") [1] 0, publishFor "q" none [2] 0]

theorem swept_for_good_once :
    let s := reached (plainEnv 64 1) guestOnly none expiredFirst
    let swept := served (plainEnv 64 1) s (.messageTtlTask 20)
    (answer (plainEnv 64 1) (Run.run (served (plainEnv 64 1)) swept
      [publishFor "q" none [3] 25]) (.basicGet 1 "q" true)).filterMap Frame.messageId = [2] ∧
      ∃ q, s.queues.get? "q" = some q ∧ (q.inflight.contains 2 = true ∨
        ∃ m ∈ q.messages.ready.dropWhile (·.isExpired 20), m.id = 2) := by
  refine ⟨by decide +kernel, ?_⟩
  exact (swept_for_good (plainEnv 64 1) guestOnly none expiredFirst 20).2
    [publishFor "q" none [3] 25] (.basicGet 1 "q" true) "q" 2 (by decide +kernel) rfl
    (by decide +kernel)

/-- Ten milliseconds after its expiration a message goes to a consumer. -/
theorem expired_delivered : ¬ ∀ (ops : List Op) (queue : String) (answers : List Bool)
    (now : Instant) (connId : UInt64) (channel : UInt16) (tag : String) (m : Message),
    .basicDeliver connId channel tag m ∈ answer (plainEnv 64 1)
      (reached (plainEnv 64 1) guestOnly none ops) (.deliverRound queue answers now) →
    ∀ e ∈ m.expiration, now < e := by
  intro law
  let ops := oneConsumer ++ [publishFor "q" (some "10") [1] 0]
  let m : Message := ⟨1, ({ BasicProperties.default with expiration := some "10" }).encode, [1], 0,
    some 10, false, 0, "", "q"⟩
  have delivered : .basicDeliver 1 1 "t" m ∈ answer (plainEnv 64 1)
      (reached (plainEnv 64 1) guestOnly none ops) (.deliverRound "q" [true] 20) := by
    decide +kernel
  have early := law ops "q" [true] 20 1 1 "t" m delivered 10 rfl
  exact absurd early (by decide)

end RocketmqBroker
