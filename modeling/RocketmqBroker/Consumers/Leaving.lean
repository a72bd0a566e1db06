import RocketmqBroker.Delivery.Consumers

/-!
What a connection takes along when it goes (state/broker.rs). It gives back what was
delivered to it, and queues go for three reasons: they are on its list of exclusive
queues, they say that they are exclusive and its own, or they are deleted automatically
and nobody listens to them any more.
-/
namespace RocketmqBroker
open Run.Program

namespace QueueState

def putBackAll (q : QueueState) (tags : List UInt64) : QueueState :=
  tags.foldl (fun q tag => q.putBack tag false) q

def BelongsTo (q : QueueState) (connId : UInt64) : Prop :=
  (q.options.exclusive = true ∧ q.ownerConnId = some connId) ∨
    (q.options.autoDelete = true ∧ (∃ tag c, q.consumerTags.get? tag = some c) ∧
      ∀ tag c, q.consumerTags.get? tag = some c → c.1 = connId)

variable {q : QueueState}

theorem inflight_putBack (tag : UInt64) (counted : Bool) (t : UInt64) :
    (q.putBack tag counted).inflight.get? t = if t = tag then none else q.inflight.get? t := by
  unfold putBack
  split
  · rename_i absent
    split
    · rename_i same
      rw [same, absent]
    · rfl
  · exact FinMap.get?_erase _ _ _

theorem ready_putBack (tag : UInt64) (counted : Bool) :
    q.messages.ready.Sublist (q.putBack tag counted).messages.ready := by
  unfold putBack
  split
  · exact .refl _
  · rename_i m found
    obtain ⟨front, back, before, after, -⟩ := PriorityQueue.ready_pushFront q.messages
      (.full (if counted then
        { m with redelivered := true, deliveryCount := m.deliveryCount + 1 } else m))
    dsimp only
    rw [before, after]
    exact (List.sublist_cons_self _ _).append_left front

structure KeptBy (q r : QueueState) : Prop where
  options : r.options = q.options
  owner : r.ownerConnId = q.ownerConnId
  listeners : r.listeners = q.listeners
  consumerTags : r.consumerTags = q.consumerTags
  active : r.activeConsumers = q.activeConsumers
  ready : q.messages.ready.Sublist r.messages.ready

theorem keptBy_putBack (q : QueueState) (tag : UInt64) (counted : Bool) :
    q.KeptBy (q.putBack tag counted) := by
  have ready := ready_putBack (q := q) tag counted
  revert ready
  unfold putBack
  split
  · exact fun ready => ⟨rfl, rfl, rfl, rfl, rfl, ready⟩
  · exact fun ready => ⟨rfl, rfl, rfl, rfl, rfl, ready⟩

theorem KeptBy.trans {q r u : QueueState} (h : q.KeptBy r) (h' : r.KeptBy u) : q.KeptBy u :=
  ⟨h'.options.trans h.options, h'.owner.trans h.owner, h'.listeners.trans h.listeners,
    h'.consumerTags.trans h.consumerTags, h'.active.trans h.active, h.ready.trans h'.ready⟩

theorem keptBy_putBackAll (q : QueueState) (tags : List UInt64) :
    q.KeptBy (q.putBackAll tags) := by
  unfold putBackAll
  induction tags generalizing q with
  | nil => exact ⟨rfl, rfl, rfl, rfl, rfl, .refl _⟩
  | cons tag tags ih => exact (keptBy_putBack q tag false).trans (ih _)

theorem inflight_putBackAll (tags : List UInt64) (t : UInt64) :
    (q.putBackAll tags).inflight.get? t = if t ∈ tags then none else q.inflight.get? t := by
  unfold putBackAll
  induction tags generalizing q with
  | nil => simp
  | cons tag tags ih =>
    rw [List.foldl_cons, ih, inflight_putBack]
    by_cases later : t ∈ tags
    · rw [if_pos later, if_pos (List.mem_cons_of_mem _ later)]
    · rw [if_neg later]
      by_cases same : t = tag
      · rw [if_pos same, if_pos (same ▸ List.mem_cons_self)]
      · rw [if_neg same, if_neg (List.not_mem_cons_of_ne_of_not_mem same later)]

end QueueState

namespace BrokerState

def exclusiveQueues (s : BrokerState) (connId : UInt64) : List String :=
  (s.connExclusiveQueues.get? connId).getD []

def listedTags (s : BrokerState) (connId : UInt64) (name : String) : List UInt64 :=
  (((s.connDeliveries.get? connId).getD []).filter fun d => d.1 == name).map Prod.snd

/-- The queue is still there when the connection is gone. -/
def outlives (s : BrokerState) (connId : UInt64) (name : String) (q : QueueState) : Bool :=
  !((s.exclusiveQueues connId).contains name) &&
    !(q.options.exclusive && q.ownerConnId == some connId) &&
    !(q.options.autoDelete && (q.listeners.filter fun l => l.1 != connId).isEmpty)

end BrokerState

section
variable {env : Env} {s : BrokerState}

theorem queues_removeQueues (names : List String) :
    ((removeQueues names : Act env Unit).final s).queues = names.foldl FinMap.erase s.queues := by
  unfold removeQueues
  induction names generalizing s with
  | nil => rfl
  | cons name names ih =>
    change ((perform (.removeQueue name) >>= fun _ => names.forM fun name =>
      perform (.removeQueue name) : Act env PUnit).final s).queues = _
    rw [final_bind, ih]
    rfl

theorem queues_requeueDelivery (delivery : String × UInt64) :
    ((requeueDelivery delivery : Act env Unit).final s).queues =
      s.queues.modify delivery.1 (·.putBack delivery.2 false) := rfl

theorem get?_requeueDeliveries (deliveries : List (String × UInt64)) (name : String) :
    ((deliveries.forM requeueDelivery : Act env PUnit).final s).queues.get? name =
      (s.queues.get? name).map (·.putBackAll ((deliveries.filter (·.1 == name)).map Prod.snd)) := by
  induction deliveries generalizing s with
  | nil =>
    change s.queues.get? name = (s.queues.get? name).map fun q => q
    rw [Option.map_id']
  | cons d ds ih =>
    change ((requeueDelivery d >>= fun _ => ds.forM requeueDelivery :
      Act env PUnit).final s).queues.get? name = _
    rw [final_bind, ih, queues_requeueDelivery, FinMap.get?_modify]
    by_cases same : d.1 = name
    · subst same
      rw [if_pos rfl, Option.map_map, List.filter_cons, if_pos (beq_self_eq_true d.1)]
      rfl
    · have apart : ¬ (d.1 == name) = true := fun h => same (eq_of_beq h)
      rw [if_neg (Ne.symm same), List.filter_cons, if_neg apart]

theorem removeQueues_leaves_deliveries (names : List String) :
    Leaves BrokerState.connDeliveries (removeQueues names : Act env Unit) :=
  Leaves.forM names fun _ => leaves_perform fun _ => rfl

theorem removeQueues_found (names : List String) (p : String → QueueState → Bool) (name : String)
    (q : Option QueueState) :
    Triple (fun _ _ => True)
      (fun t : BrokerState => names = (t.queues.retain p).keys ∧ t.queues.get? name = q)
      (removeQueues names : Act env Unit) fun _ t =>
        t.queues.get? name = q.filter fun q => !p name q := by
  rintro t ⟨rfl, rfl⟩ -
  rw [queues_removeQueues]
  exact FinMap.get?_erase_found t.queues p name

def BrokerState.left (s : BrokerState) (connId : UInt64) (name : String) (q : QueueState) :
    QueueState := (dropListeners connId).apply (q.putBackAll (s.listedTags connId name))

theorem left_of_outlives (connId : UInt64) (name : String) (q : Option QueueState) :
    (((((if name ∈ s.exclusiveQueues connId then none else q).map
      (·.putBackAll (s.listedTags connId name))).map (dropListeners connId).apply).filter
      fun q => !(q.options.exclusive && q.ownerConnId == some connId)).filter
      fun q => !(q.options.autoDelete && q.listeners.isEmpty)) =
    (q.filter (s.outlives connId name)).map (s.left connId name) := by
  cases q with
  | none => split <;> rfl
  | some q =>
    have kept := q.keptBy_putBackAll (s.listedTags connId name)
    have options : (s.left connId name q).options = q.options := kept.options
    have owner : (s.left connId name q).ownerConnId = q.ownerConnId := kept.owner
    have listeners : (s.left connId name q).listeners =
        q.listeners.filter fun l => l.1 != connId := by
      change (q.putBackAll _).listeners.filter _ = _
      rw [kept.listeners]
    unfold BrokerState.outlives
    by_cases listed : name ∈ s.exclusiveQueues connId
    · simp [listed]
    · have unlisted : (s.exclusiveQueues connId).contains name = false := by simpa using listed
      rw [if_neg listed, Option.map_some, Option.map_some, Option.filter_filter,
        Option.filter_some, Option.filter_some, unlisted]
      change (if (!((s.left connId name q).options.exclusive &&
        (s.left connId name q).ownerConnId == some connId) &&
        !((s.left connId name q).options.autoDelete && (s.left connId name q).listeners.isEmpty)) =
          true then some (s.left connId name q) else none) = _
      rw [options, owner, listeners, Bool.not_false, Bool.true_and]
      split <;> rfl

/-- The queues left are those that outlive the connection, with its deliveries put back
    and without its consumers. -/
theorem get?_removeConnection (connId : UInt64) (name : String) :
    Triple (fun _ _ => True) (· = s) (removeConnection connId : Act env Unit) fun _ t =>
      t.queues.get? name =
        ((s.queues.get? name).filter (s.outlives connId name)).map (s.left connId name) := by
  unfold removeConnection
  refine Triple.bind (R := fun _ t => t.queues = s.queues ∧ t.connDeliveries = s.connDeliveries ∧
    t.connExclusiveQueues = s.connExclusiveQueues) ?_ fun _ => ?_
  · rintro t rfl -
    exact ⟨rfl, rfl, rfl⟩
  refine Triple.bind (R := fun exclusive t => exclusive = s.exclusiveQueues connId ∧
    t.queues = s.queues ∧ t.connDeliveries = s.connDeliveries) (triple_read ?_) fun exclusive => ?_
  · rintro t ⟨queues, deliveries, exclusive⟩
    refine ⟨?_, queues, deliveries⟩
    unfold BrokerState.exclusiveQueues
    rw [exclusive]
  refine Triple.bind (R := fun _ t => exclusive = s.exclusiveQueues connId ∧
    t.queues = s.queues ∧ t.connDeliveries = s.connDeliveries) (fun t facts _ => facts) fun _ => ?_
  refine Triple.bind (R := fun _ t => t.connDeliveries = s.connDeliveries ∧ t.queues.get? name =
    if name ∈ s.exclusiveQueues connId then none else s.queues.get? name) ?_ fun _ => ?_
  · rintro t ⟨rfl, queues, deliveries⟩ -
    refine ⟨(removeQueues_leaves_deliveries _ t).trans deliveries, ?_⟩
    rw [queues_removeQueues, FinMap.get?_foldl_erase, queues]
  refine Triple.bind (R := fun listed t => listed = (s.connDeliveries.get? connId).getD [] ∧
    t.queues.get? name = if name ∈ s.exclusiveQueues connId then none else s.queues.get? name)
    (triple_read ?_) fun listed => ?_
  · rintro t ⟨deliveries, found⟩
    rw [deliveries]
    exact ⟨rfl, found⟩
  refine Triple.bind (R := fun _ t => listed = (s.connDeliveries.get? connId).getD [] ∧
    t.queues.get? name = if name ∈ s.exclusiveQueues connId then none else s.queues.get? name)
    (fun t facts _ => facts) fun _ => ?_
  let back := ((if name ∈ s.exclusiveQueues connId then none else s.queues.get? name).map
    (·.putBackAll (s.listedTags connId name)))
  refine Triple.bind (R := fun _ t => t.queues.get? name = back) ?_ fun _ => ?_
  · rintro t ⟨rfl, found⟩ -
    rw [get?_requeueDeliveries, found]
    rfl
  refine Triple.bind (R := fun _ t => t.queues.get? name = back)
    (triple_read fun t found => found) fun tags => ?_
  refine Triple.bind (R := fun _ t => t.queues.get? name = back) (fun t found _ => found)
    fun _ => ?_
  refine Triple.bind (R := fun _ t => t.queues.get? name = back.map (dropListeners connId).apply)
    (triple_perform ?_) fun _ => ?_
  · rintro t found -
    change (t.queues.mapVals fun _ q => (dropListeners connId).apply q).get? name = _
    rw [FinMap.get?_mapVals, found]
  let owned : String → QueueState → Bool := fun _ q =>
    q.options.exclusive && q.ownerConnId == some connId
  refine Triple.bind (R := fun names t => names = (t.queues.retain owned).keys ∧
    t.queues.get? name = back.map (dropListeners connId).apply)
    (triple_read fun t found => ⟨rfl, found⟩) fun names => ?_
  refine Triple.bind (removeQueues_found names owned name _) fun _ => ?_
  let unused : String → QueueState → Bool := fun _ q => q.options.autoDelete && q.listeners.isEmpty
  refine Triple.bind (R := fun names t => names = (t.queues.retain unused).keys ∧
    t.queues.get? name = (back.map (dropListeners connId).apply).filter fun q => !owned name q)
    (triple_read fun t found => ⟨rfl, found⟩) fun names => ?_
  intro t found along
  rw [removeQueues_found names unused name _ t found along]
  exact left_of_outlives connId name (s.queues.get? name)

theorem get?_disconnect (connId : UInt64) (name : String) :
    (served env s (.disconnect connId)).queues.get? name =
      ((s.queues.get? name).filter (s.outlives connId name)).map (s.left connId name) := by
  have gone : served env s (.disconnect connId) =
      (removeConnection connId : Act env Unit).final s := by
    change (removeConnection connId >>= fun _ => pure [] : Act env (List Frame)).final s = _
    rw [final_bind, final_pure]
  rw [gone]
  exact get?_removeConnection connId name s rfl (Run.along_true _ _)

section
variable {connId : UInt64} {name : String} {q r : QueueState}

theorem outlives_eq_false :
    s.outlives connId name q = false ↔ name ∈ s.exclusiveQueues connId ∨
      (q.options.exclusive = true ∧ q.ownerConnId = some connId) ∨
      (q.options.autoDelete = true ∧ ∀ l ∈ q.listeners, l.1 = connId) := by
  unfold BrokerState.outlives
  simp only [Bool.and_eq_false_iff, Bool.not_eq_false', Bool.and_eq_true, List.contains_iff_mem,
    beq_iff_eq, List.isEmpty_iff, List.filter_eq_nil_iff, bne_iff_ne, ne_eq, not_not, or_assoc]

theorem inflight_left (tag : UInt64) : (s.left connId name q).inflight.get? tag =
    if tag ∈ s.listedTags connId name then none else q.inflight.get? tag :=
  QueueState.inflight_putBackAll _ tag

theorem gone_with (found : s.queues.get? name = some q)
    (leaves : s.outlives connId name q = false) :
    (served env s (.disconnect connId)).queues.get? name = none := by
  rw [get?_disconnect, found, Option.filter_some, leaves]
  rfl

theorem stays_after (found : s.queues.get? name = some q)
    (outlives : s.outlives connId name q = true) :
    (served env s (.disconnect connId)).queues.get? name = some (s.left connId name q) := by
  rw [get?_disconnect, found, Option.filter_some, outlives]
  rfl

theorem remains_after (found : s.queues.get? name = some q)
    (there : (served env s (.disconnect connId)).queues.get? name = some r) :
    s.outlives connId name q = true ∧ r = s.left connId name q := by
  cases outlives : s.outlives connId name q with
  | false =>
    rw [gone_with found outlives] at there
    cases there
  | true => exact ⟨rfl, Option.some.inj (there.symm.trans (stays_after found outlives))⟩

end

end

def QueueView.Listening (q : QueueView) : Prop :=
  ∀ tag c, q.consumerTags.get? tag = some c → (c.1, c.2.1) ∈ q.listeners

theorem listening_left {q : QueueView} (listening : q.Listening) (connId : UInt64) :
    QueueView.Listening { q with
      listeners := q.listeners.filter fun l => l.1 != connId
      consumerTags := q.consumerTags.retain fun _ c => c.1 != connId } := by
  intro tag c found
  dsimp only at found
  rw [FinMap.get?_retain] at found
  obtain ⟨old, other⟩ := Option.filter_eq_some_iff.mp found
  exact List.mem_filter.mpr ⟨listening tag c old, other⟩

theorem listening_consumed {q : QueueView} (listening : q.Listening) (connId : UInt64)
    (channel : UInt16) (tag : String) (noAck : Bool) :
    QueueView.Listening { q with
      listeners := if q.listeners.contains (connId, channel) then q.listeners
        else q.listeners ++ [(connId, channel)]
      consumerTags := q.consumerTags.insert tag (connId, channel, noAck)
      activeConsumers :=
        QueueState.snapshotConsumers (q.consumerTags.insert tag (connId, channel, noAck)) } := by
  have grown : ∀ l, l ∈ q.listeners ∨ l = (connId, channel) →
      l ∈ if q.listeners.contains (connId, channel) then q.listeners
        else q.listeners ++ [(connId, channel)] := by
    rintro l (old | rfl)
    · split
      · exact old
      · exact List.mem_append_left _ old
    · split
      · rename_i known
        exact List.contains_iff_mem.mp known
      · exact List.mem_append_right _ (List.mem_singleton_self _)
  intro t c found
  dsimp only at found
  rw [FinMap.get?_insert] at found
  split at found
  · obtain rfl := Option.some.inj found
    exact grown _ (.inr rfl)
  · exact grown _ (.inl (listening t c found))

theorem listening_rule : QueueRule fun _ q => q.Listening where
  missing _ _ _ found := by cases found
  inflight _ _ _ listening := listening
  left _ _ connId listening := listening_left listening connId
  consumed _ _ connId channel tag noAck listening :=
    listening_consumed listening connId channel tag noAck

theorem listening_reached (env : Env) (auth : AuthBackend) (cluster : Option ClusterCoordinator)
    (ops : List Op) {name : String} {q : QueueState}
    (found : (reached env auth cluster ops).queues.get? name = some q) : q.view.Listening := by
  have each : (reached env auth cluster ops).view.Each fun _ q => q.Listening := by
    rw [reached_eq_run]
    have empty : (install env auth cluster).view.Each fun _ q => q.Listening :=
      listening_rule.missing
    exact Run.invariant (fun _ s => s.view.Each fun _ q => q.Listening) empty
      (fun _ s op _ each => (serves_any env s op).each listening_rule each) (Run.along_true _ _)
  have here := each name
  change ((reached env auth cluster ops).queueView name).Listening at here
  unfold BrokerState.queueView at here
  rw [found] at here
  exact here

namespace Observed

structure SparedBy (o : Observed) (connId : UInt64) (t : BrokerState) : Prop where
  removed : ∀ name q, o.broker.queues.get? name = some q → t.queues.get? name = none →
    q.BelongsTo connId
  options : ∀ name q r, o.broker.queues.get? name = some q → t.queues.get? name = some r →
    r.options = q.options
  ready : ∀ name q r, o.broker.queues.get? name = some q → t.queues.get? name = some r →
    q.messages.ready.Sublist r.messages.ready
  consumers : ∀ name q r, o.broker.queues.get? name = some q → t.queues.get? name = some r →
    ∀ tag c, q.consumerTags.get? tag = some c → c.1 ≠ connId →
      r.consumerTags.get? tag = some c ∧ (c.1, c.2.1) ∈ r.listeners ∧
        ∀ a ∈ q.activeConsumers, a ∈ r.activeConsumers
  inFlight : ∀ name q r, o.broker.queues.get? name = some q → t.queues.get? name = some r →
    ∀ tag m d, q.inflight.get? tag = some m → o.outstanding.get? (name, tag) = some d →
      d.connId ≠ connId → r.inflight.get? tag = some m

/-- The list of exclusive queues of the connection is up to date, every auto-delete queue
    that nobody else listens to has a consumer, and what is listed as delivered to the
    connection is nobody else's. -/
structure LeavesCleanly (o : Observed) (connId : UInt64) : Prop where
  listed : ∀ name ∈ o.broker.exclusiveQueues connId, ∀ q,
    o.broker.queues.get? name = some q → q.BelongsTo connId
  consumed : ∀ name q, o.broker.queues.get? name = some q → q.options.autoDelete = true →
    (∀ l ∈ q.listeners, l.1 = connId) →
    (q.options.exclusive = true ∧ q.ownerConnId = some connId) ∨
      ∃ tag c, q.consumerTags.get? tag = some c
  delivered : ∀ name q, o.broker.queues.get? name = some q →
    o.broker.outlives connId name q = true →
    ∀ tag ∈ o.broker.listedTags connId name, ∀ m, q.inflight.get? tag = some m →
      ∀ d, o.outstanding.get? (name, tag) = some d → d.connId = connId

variable {env : Env} {o : Observed} {connId : UInt64}

theorem clean_of_spared (spared : o.SparedBy connId (served env o.broker (.disconnect connId))) :
    o.LeavesCleanly connId := by
  refine ⟨fun name member q found => ?_, fun name q found auto alone => ?_, ?_⟩
  · exact spared.removed name q found (gone_with found (outlives_eq_false.mpr (.inl member)))
  · have leaves : o.broker.outlives connId name q = false :=
      outlives_eq_false.mpr (.inr (.inr ⟨auto, alone⟩))
    exact (spared.removed name q found (gone_with found leaves)).imp_right fun left => left.2.1
  · intro name q found outlives tag listed m held d noted
    by_contra other
    have still := spared.inFlight name q _ found (stays_after found outlives) tag m d held noted
      other
    rw [inflight_left, if_pos listed] at still
    cases still

theorem spared_of_clean (clean : o.LeavesCleanly connId)
    (listening : ∀ name q, o.broker.queues.get? name = some q → q.view.Listening) :
    o.SparedBy connId (served env o.broker (.disconnect connId)) := by
  have kept (name : String) (q : QueueState) := q.keptBy_putBackAll
    (o.broker.listedTags connId name)
  refine ⟨fun name q found missing => ?_, fun name q r found there => ?_,
    fun name q r found there => ?_, fun name q r found there tag c entry other => ?_,
    fun name q r found there tag m d held noted other => ?_⟩
  · cases outlives : o.broker.outlives connId name q with
    | true =>
      rw [stays_after found outlives] at missing
      cases missing
    | false =>
      obtain member | mine | ⟨auto, alone⟩ := outlives_eq_false.mp outlives
      · exact clean.listed name member q found
      · exact .inl mine
      · refine (clean.consumed name q found auto alone).imp_right fun consumed => ?_
        exact ⟨auto, consumed, fun tag c entry => alone _ (listening name q found tag c entry)⟩
  all_goals obtain ⟨outlives, rfl⟩ := remains_after found there
  · exact (kept name q).options
  · exact (kept name q).ready
  · refine ⟨?_, ?_, fun a active => ?_⟩
    · change ((q.putBackAll _).consumerTags.retain fun _ c => c.1 != connId).get? tag = some c
      rw [(kept name q).consumerTags, FinMap.get?_retain, entry, Option.filter_some,
        if_pos (bne_iff_ne.mpr other)]
    · change (c.1, c.2.1) ∈ (q.putBackAll _).listeners.filter fun l => l.1 != connId
      rw [(kept name q).listeners]
      exact List.mem_filter.mpr ⟨listening name q found tag c entry, bne_iff_ne.mpr other⟩
    · change a ∈ (q.putBackAll _).activeConsumers
      rw [(kept name q).active]
      exact active
  · rw [inflight_left, if_neg fun listed =>
      other (clean.delivered name q found outlives tag listed m held d noted)]
    exact held

/-- Removing a connection spares everything else exactly when it leaves cleanly. -/
theorem spared_iff (env : Env) (auth : AuthBackend) (cluster : Option ClusterCoordinator)
    (rs : List Request) (connId : UInt64) :
    let o := after env auth cluster rs
    o.SparedBy connId (served env o.broker (.disconnect connId)) ↔ o.LeavesCleanly connId := by
  refine ⟨clean_of_spared, fun clean => spared_of_clean clean fun name q found => ?_⟩
  rw [broker_after] at found
  exact listening_reached env auth cluster _ found

end Observed

/-- The queue is deleted through the management interface and made again by another
    client, who publishes to it. Its name is still on the list of the first one. -/
def queueMadeAgain : List Op :=
  [.connect "127.0.0.1:50000" "guest" "/", .channelOpen 1 1,
    .queueDeclare 1 ⟨"q", false, true, true, false, false, []⟩ 0, .deleteQueue "q",
    .connect "127.0.0.1:50001" "guest" "/", .channelOpen 2 1,
    .queueDeclare 2 ⟨"q", false, true, false, false, false, []⟩ 0,
    .basicPublish 2 1 ⟨"", "q", false, BasicProperties.default, [1]⟩ 0]

theorem stranger_queue_removed : ¬ ∀ (rs : List Request) (connId : UInt64),
    let o := Observed.after (plainEnv 64 1) guestOnly none rs
    o.SparedBy connId (served (plainEnv 64 1) o.broker (.disconnect connId)) := by
  intro spared
  let o := Observed.after (plainEnv 64 1) guestOnly none (Request.onFirstChannel queueMadeAgain)
  have before : (o.broker.queues.get? "q").map (fun q =>
      (q.options.exclusive, q.options.autoDelete, q.messages.ready.length)) =
      some (false, false, 1) := by decide +kernel
  have after : (served (plainEnv 64 1) o.broker (.disconnect 1)).queues.contains "q" = false := by
    decide +kernel
  obtain ⟨q, found, kind⟩ := Option.map_eq_some_iff.mp before
  have gone : (served (plainEnv 64 1) o.broker (.disconnect 1)).queues.get? "q" = none :=
    Option.isSome_eq_false_iff.mp after |> Option.isNone_iff_eq_none.mp
  obtain ⟨exclusive, -⟩ | ⟨auto, -⟩ :=
    (spared (Request.onFirstChannel queueMadeAgain) 1).removed "q" q found gone
  · simp [exclusive] at kind
  · simp [auto] at kind

end RocketmqBroker
