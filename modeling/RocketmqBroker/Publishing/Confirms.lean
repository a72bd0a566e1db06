import RocketmqBroker.Broker.Step
import RocketmqBroker.Publishing.Receivers

/-!
Publishing where calls fail. A target may need an append to the log, and on a channel in
confirm mode of a cluster a round of replication; how these end is up to the disk and to the
other members, and is in the input. A failed append leaves the message in memory only, and
what replication returns is dropped: the confirm does not depend on either. A refused message
gets its nack behind the error, so it gets none where the error cannot be sent.
-/
namespace RocketmqBroker
open Run Run.Program

structure Outcome where
  appended : Bool
  replicated : Bool

/-- What the calls for one target returned, as far as there were any. -/
structure TargetReport where
  queue : String
  appended : Option Bool
  replicated : Option Bool
  deriving DecidableEq

structure PublishReport where
  frames : List Frame
  targets : List String
  reports : List TargetReport

def QueueState.touch (now : Instant) (q : QueueState) : QueueState := { q with lastActivity := now }

section
variable {env : Env}

/-- The push of `enqueue_single`, with what the append returned. -/
def pushFallible (queue : String) (ctx : EnqueueCtx) (now : Instant) (q : QueueState)
    (appends : Bool) : Act env (Option Bool) := do
  if q.persists ctx && !appends then
    let msgId ← look fun s => s.nextMsgId
    perform .alloc
    perform (.pushFull queue ⟨msgId, ctx.propBytes, ctx.bodyBytes,
      capPriority ctx.priority q.options.maxPriority,
      resolveTtl q.options.messageTtl ctx.perMsgTtl now, false, 0, ctx.exchange, ctx.routingKey⟩)
    perform (.tune queue { apply := QueueState.touch now })
    return some false
  else
    perform (.enqueue queue ctx now)
    return if q.persists ctx then some true else none

def enqueueFallible (queue : String) (ctx : EnqueueCtx) (now : Instant) (appends : Bool) :
    Act env (Option Bool) := do
  match ← look fun s => s.queues.get? queue with
  | none =>
    perform (.enqueue queue ctx now)
    return none
  | some q =>
    match q.options.maxLength with
    | some maxLen => evictOverflow queue maxLen q.messages.len
    | none => pure ()
    pushFallible queue ctx now q appends

def enqueueToTargets (ctx : EnqueueCtx) (now : Instant) :
    List String → (Nat → Outcome) → Act env (List TargetReport)
  | [], _ => return []
  | queue :: rest, outcome => do
    let appended ← enqueueFallible queue ctx now (outcome 0).appended
    let reports ← enqueueToTargets ctx now rest fun i => outcome (i + 1)
    return ⟨queue, appended, none⟩ :: reports

/-- `replicate_confirmed_publishes`: `let _ = c.replicate_publish(..)` for each target, and
    then the ack. -/
def replicateConfirmedPublishes (tag : Option UInt64) (targets : List String)
    (reports : List TargetReport) (outcome : Nat → Outcome) : Act env PublishReport := do
  match tag with
  | none => return ⟨[], targets, reports⟩
  | some tag =>
    let clustered ← look fun s => s.cluster.isSome
    return ⟨[.basicAck tag], targets, reports.mapIdx fun i r =>
      { r with replicated := if clustered then some (outcome i).replicated else none }⟩

def routeFallible (args : PublishArgs) (now : Instant) (tag : Option UInt64)
    (outcome : Nat → Outcome) : Act env PublishReport := do
  match ← look fun s => s.exchanges.get? args.exchange with
  | none => return ⟨confirmAck tag, [], []⟩
  | some ex =>
    let targets := args.targets env ex
    if targets.isEmpty then return ⟨handleNoRoute args tag, [], []⟩
    else
      match ← look fun s => schemaFailure env s targets args.body with
      | some (queue, description) =>
        let text := env.schemaReplyText queue (.validation description)
        let close ← sendChannelError preconditionFailed text classBasic methodBasicPublish
        return ⟨if close.isEmpty then [] else close ++ tag.toList.map .basicNack, targets, []⟩
      | none =>
        let reports ← enqueueToTargets args.ctx now targets outcome
        replicateConfirmedPublishes tag targets reports outcome

def publishFallible (connId : UInt64) (channel : UInt16) (args : PublishArgs) (now : Instant)
    (outcome : Nat → Outcome) : Act env PublishReport := do
  if ← denied connId (·.write) args.exchange then
    return ⟨← denyAccess classBasic methodBasicPublish, [], []⟩
  else
    let tag ← allocConfirmTag connId channel
    if ← bufferTxPublish connId args then return ⟨[], [], []⟩
    else routeFallible args now tag outcome

def BrokerState.logs (s : BrokerState) (ctx : EnqueueCtx) (queue : String) : Bool :=
  (s.queues.get? queue).any (·.persists ctx)

def BrokerState.outlook (s : BrokerState) (ctx : EnqueueCtx) : (String → Bool) × Bool :=
  (s.logs ctx, s.cluster.isSome)

variable {s : BrokerState} {ctx : EnqueueCtx} {now : Instant} {args : PublishArgs}
  {outcome : Nat → Outcome}

theorem outlook_modifyQueue {queue : String} {f : QueueState → QueueState}
    (same : ∀ q, (f q).options = q.options) :
    (s.modifyQueue queue f).outlook ctx = s.outlook ctx := by
  refine Prod.ext ?_ rfl
  funext name
  change (s.modifyQueue queue f).logs ctx name = s.logs ctx name
  unfold BrokerState.logs
  rw [get?_modifyQueue]
  split
  · rw [Option.any_map]
    unfold QueueState.persists
    simp only [same]
  · rfl

theorem leaves_evictOverflow (queue : String) (maxLen fuel : Nat) :
    Leaves (fun s : BrokerState => s.outlook ctx)
      (evictOverflow queue maxLen fuel : Act env Unit) := by
  induction fuel with
  | zero => exact leaves_pure _
  | succ fuel ih =>
    refine (leaves_read _).bind fun tooLong => ?_
    split
    · refine Leaves.bind (leaves_perform fun s => ?_) fun _ => ih
      exact outlook_modifyQueue fun q => QueueState.dropOldest_options
    · exact leaves_pure _

theorem leaves_enqueueFallible (queue : String) (appends : Bool)
    (ctx' : EnqueueCtx) :
    Leaves (fun s : BrokerState => s.outlook ctx')
      (enqueueFallible queue ctx now appends : Act env (Option Bool)) := by
  have enqueues : Leaves (fun s : BrokerState => s.outlook ctx')
      (perform (.enqueue queue ctx now) : Act env Unit) :=
    leaves_perform fun s => outlook_modifyQueue fun _ => rfl
  have pushes (q : QueueState) : Leaves (fun s : BrokerState => s.outlook ctx')
      (pushFallible queue ctx now q appends : Act env (Option Bool)) := by
    unfold pushFallible
    split
    · refine (leaves_read _).bind fun msgId => ?_
      refine Leaves.bind (leaves_perform fun s => rfl) fun _ => ?_
      refine Leaves.bind (leaves_perform fun s => outlook_modifyQueue fun _ => rfl) fun _ => ?_
      refine Leaves.bind (leaves_perform fun s => outlook_modifyQueue fun _ => rfl) fun _ => ?_
      exact leaves_pure _
    · exact enqueues.bind fun _ => leaves_pure _
  refine (leaves_read _).bind fun found => ?_
  cases found with
  | none => exact enqueues.bind fun _ => leaves_pure _
  | some q =>
    dsimp only
    split
    · exact (leaves_evictOverflow _ _ _).bind fun _ => pushes q
    · exact pushes q

theorem result_pushFallible (queue : String) (q : QueueState) (appends : Bool) :
    (pushFallible queue ctx now q appends : Act env (Option Bool)).result s =
      if q.persists ctx then some appends else none := by
  unfold pushFallible
  cases q.persists ctx <;> cases appends <;> rfl

theorem result_enqueueFallible (queue : String) (appends : Bool) :
    (enqueueFallible queue ctx now appends : Act env (Option Bool)).result s =
      if s.logs ctx queue then some appends else none := by
  unfold enqueueFallible BrokerState.logs
  rw [result_bind]
  change (match s.queues.get? queue with
    | none => _
    | some q => _ : Act env (Option Bool)).result s = _
  cases s.queues.get? queue with
  | none => rfl
  | some q =>
    dsimp only
    rw [Option.any_some]
    split
    · rw [result_bind, result_pushFallible]
    · exact result_pushFallible queue q appends

theorem result_enqueueToTargets (targets : List String) :
    (enqueueToTargets ctx now targets outcome : Act env (List TargetReport)).result s =
      targets.mapIdx fun i queue =>
        ⟨queue, if s.logs ctx queue then some (outcome i).appended else none, none⟩ := by
  induction targets generalizing s outcome with
  | nil => rfl
  | cons queue targets ih =>
    unfold enqueueToTargets
    have same : ((enqueueFallible queue ctx now (outcome 0).appended :
        Act env (Option Bool)).final s).logs ctx = s.logs ctx :=
      congrArg Prod.fst (leaves_enqueueFallible queue _ ctx s)
    rw [result_bind, result_bind, ih, result_enqueueFallible, same, List.mapIdx_cons]
    rfl

theorem leaves_enqueueToTargets (targets : List String) (ctx' : EnqueueCtx) :
    Leaves (fun s : BrokerState => s.outlook ctx')
      (enqueueToTargets ctx now targets outcome : Act env (List TargetReport)) := by
  induction targets generalizing outcome with
  | nil => exact leaves_pure _
  | cons queue targets ih =>
    refine (leaves_enqueueFallible queue _ ctx').bind fun appended => ?_
    exact ih.bind fun reports => leaves_pure _

end

def TargetReport.Secured (s : BrokerState) (ctx : EnqueueCtx) (r : TargetReport) : Prop :=
  r.replicated = some true ∧ (s.logs ctx r.queue = true → r.appended = some true)

def PublishReport.Secured (s : BrokerState) (ctx : EnqueueCtx) (p : PublishReport) : Prop :=
  p.reports.map (·.queue) = p.targets ∧ ∀ r ∈ p.reports, r.Secured s ctx

/-- An ack only for a message that is secured, and a nack otherwise. -/
def PublishReport.Truthful (s : BrokerState) (ctx : EnqueueCtx) (tag : UInt64)
    (p : PublishReport) : Prop :=
  (.basicAck tag ∈ p.frames → p.Secured s ctx) ∧ (¬ p.Secured s ctx → .basicNack tag ∈ p.frames)

/-- The queues that a publish puts the message into, if it is not held back. -/
def PublishArgs.enqueued (env : Env) (s : BrokerState) (args : PublishArgs) : List String :=
  match s.exchanges.get? args.exchange with
  | none => []
  | some ex =>
    if (schemaFailure env s (args.targets env ex) args.body).isSome then []
    else args.targets env ex

/-- No call fails for a queue that the message is put into, and a refusal can be sent. -/
def PublishArgs.Spared (env : Env) (s : BrokerState) (args : PublishArgs)
    (outcome : Nat → Outcome) : Prop :=
  args.Answerable env s ∧ ∀ i queue, (args.enqueued env s)[i]? = some queue →
    (outcome i).replicated = true ∧ (s.logs args.ctx queue = true → (outcome i).appended = true)

section
variable {env : Env} {s : BrokerState} {args : PublishArgs} {now : Instant} {tag : UInt64}
  {outcome : Nat → Outcome}

theorem spared_nowhere (nowhere : args.enqueued env s = []) :
    args.Spared env s outcome ↔ args.Answerable env s := by
  refine and_iff_left fun i queue here => ?_
  rw [nowhere] at here
  cases here

theorem truthful_nowhere (frames : List Frame) :
    (PublishReport.mk frames [] []).Truthful s args.ctx tag := by
  have secured : (PublishReport.mk frames [] []).Secured s args.ctx :=
    ⟨rfl, fun r none_there => absurd none_there List.not_mem_nil⟩
  exact ⟨fun _ => secured, fun not => absurd secured not⟩

/-- A refused message is in no queue, so it needs the nack, which comes behind the error. -/
theorem truthful_refused_iff {targets : List String} (somewhere : ¬ targets.isEmpty = true)
    {code classId methodId : Nat} {text : String} :
    (PublishReport.mk (if (closeFrames code text classId methodId).isEmpty then []
      else closeFrames code text classId methodId ++ (some tag).toList.map .basicNack) targets
        []).Truthful s args.ctx tag ↔ FitsShortstr text := by
  rw [nack_behind_close]
  have unsecured (frames : List Frame) : ¬ (PublishReport.mk frames targets []).Secured s args.ctx :=
    fun secured => somewhere (List.isEmpty_iff.mpr secured.1.symm)
  constructor
  · intro truthful
    by_contra long
    have nacked := truthful.2 (unsecured _)
    rw [if_neg long] at nacked
    cases nacked
  · intro fits
    rw [if_pos fits]
    refine ⟨fun acked => ?_, fun _ => List.mem_cons_of_mem _ List.mem_cons_self⟩
    simp at acked

theorem truthful_acked_iff {targets : List String} {reports : List TargetReport} :
    (PublishReport.mk [.basicAck tag] targets reports).Truthful s args.ctx tag ↔
      (PublishReport.mk [.basicAck tag] targets reports).Secured s args.ctx := by
  constructor
  · intro truthful
    exact truthful.1 List.mem_cons_self
  · intro secured
    exact ⟨fun _ => secured, fun not => absurd secured not⟩

/-- The calls as they end, for each of the targets. -/
theorem secured_iff (frames : List Frame) (targets : List String) :
    (PublishReport.mk frames targets (targets.mapIdx fun i queue => TargetReport.mk queue
      (if s.logs args.ctx queue then some (outcome i).appended else none)
      (some (outcome i).replicated))).Secured s args.ctx ↔
      ∀ i queue, targets[i]? = some queue → (outcome i).replicated = true ∧
        (s.logs args.ctx queue = true → (outcome i).appended = true) := by
  have each (i : Nat) (queue : String) : (TargetReport.mk queue
      (if s.logs args.ctx queue then some (outcome i).appended else none)
      (some (outcome i).replicated)).Secured s args.ctx ↔ (outcome i).replicated = true ∧
        (s.logs args.ctx queue = true → (outcome i).appended = true) := by
    refine and_congr Option.some_inj (forall_congr' fun logs => ?_)
    dsimp only
    rw [if_pos logs, Option.some_inj]
  constructor
  · rintro ⟨-, all⟩ i queue here
    obtain ⟨less, same⟩ := List.getElem?_eq_some_iff.mp here
    refine (each i queue).mp (all _ (List.mem_mapIdx.mpr ⟨i, less, ?_⟩))
    rw [same]
  · intro all
    refine ⟨?_, ?_⟩
    · refine List.ext_getElem? fun i => ?_
      rw [List.getElem?_map, List.getElem?_mapIdx, Option.map_map]
      exact Option.map_id'
    · intro r member
      obtain ⟨i, less, rfl⟩ := List.mem_mapIdx.mp member
      exact (each i _).mpr (all i _ (List.getElem?_eq_getElem less))

theorem result_replicateConfirmed (clustered : s.cluster.isSome = true) (targets : List String)
    (reports : List TargetReport) :
    (replicateConfirmedPublishes (some tag) targets reports outcome :
      Act env PublishReport).result s = ⟨[.basicAck tag], targets,
        reports.mapIdx fun i r => { r with replicated := some (outcome i).replicated }⟩ := by
  have looked : (replicateConfirmedPublishes (some tag) targets reports outcome :
      Act env PublishReport).result s = ⟨[.basicAck tag], targets, reports.mapIdx fun i r =>
        { r with replicated := if s.cluster.isSome then some (outcome i).replicated else none }⟩ :=
    rfl
  rw [looked, clustered]
  rfl

theorem routeFallible_truthful_iff (clustered : s.cluster.isSome = true) :
    ((routeFallible args now (some tag) outcome : Act env PublishReport).result s).Truthful s
        args.ctx tag ↔ args.Spared env s outcome := by
  unfold routeFallible
  rw [result_bind]
  change PublishReport.Truthful s args.ctx tag (result (match s.exchanges.get? args.exchange with
    | none => _
    | some ex => _) s) ↔ _
  cases found : s.exchanges.get? args.exchange with
  | none =>
    refine iff_of_true (truthful_nowhere _) ((spared_nowhere ?_).mpr ?_)
    · unfold PublishArgs.enqueued
      rw [found]
    · simp [PublishArgs.Answerable, PublishArgs.refusal?, found]
  | some ex =>
    have enqueued : args.enqueued env s =
        if (schemaFailure env s (args.targets env ex) args.body).isSome then []
        else args.targets env ex := by
      unfold PublishArgs.enqueued
      rw [found]
    dsimp only
    split
    · rename_i empty
      refine iff_of_true (truthful_nowhere _) ((spared_nowhere ?_).mpr ?_)
      · rw [enqueued, List.isEmpty_iff.mp empty, ite_self]
      · rw [PublishArgs.answerable_iff found, List.isEmpty_iff.mp empty]
        exact nofun
    · rename_i some_left
      rw [result_bind]
      change PublishReport.Truthful s args.ctx tag (result (match schemaFailure env s
        (args.targets env ex) args.body with
        | some (queue, description) => _
        | none => _) s) ↔ _
      cases refused : schemaFailure env s (args.targets env ex) args.body with
      | some failure =>
        rw [refused] at enqueued
        rw [spared_nowhere enqueued, PublishArgs.answerable_iff found, refused]
        simp only [Option.mem_some_iff, forall_eq']
        exact truthful_refused_iff some_left
      | none =>
        rw [refused] at enqueued
        dsimp only
        have there : ((enqueueToTargets args.ctx now (args.targets env ex) outcome :
            Act env (List TargetReport)).final s).cluster.isSome = true :=
          (congrArg Prod.snd (leaves_enqueueToTargets _ args.ctx s)).trans clustered
        rw [result_bind, result_enqueueToTargets]
        rw [result_replicateConfirmed there, List.mapIdx_mapIdx, truthful_acked_iff]
        refine (secured_iff _ _).trans ?_
        unfold PublishArgs.Spared
        rw [enqueued, PublishArgs.answerable_iff found, refused]
        exact (and_iff_right nofun).symm

/-- A message that is held back neither gets an ack nor needs one. -/
theorem publishFallible_truthful_iff (connId : UInt64) (channel : UInt16)
    (confirms : s.confirmTag? connId channel = some tag) (clustered : s.cluster.isSome = true) :
    ((publishFallible connId channel args now outcome : Act env PublishReport).result s).Truthful s
        args.ctx tag ↔
      (checkPermission env s connId (·.write) args.exchange = true → s.inTx connId = false →
        args.Spared env s outcome) := by
  unfold publishFallible
  rw [result_bind]
  change PublishReport.Truthful s args.ctx tag (result (if !checkPermission env s connId
    (·.write) args.exchange then _ else allocConfirmTag connId channel >>= _) s) ↔ _
  cases permitted : checkPermission env s connId (·.write) args.exchange with
  | false => exact iff_of_true (truthful_nowhere _) nofun
  | true =>
    simp only [Bool.not_true, Bool.false_eq_true, if_false]
    rw [result_bind, allocConfirmTag_at.1, allocConfirmTag_at.2, result_bind, bufferTxPublish_at.1,
      bufferTxPublish_at.2, numbered_inTx, confirms]
    cases s.inTx connId with
    | true => exact iff_of_true (truthful_nowhere _) nofun
    | false =>
      obtain ⟨conns, numbered⟩ := s.numbered_connState connId channel
      rw [numbered, if_neg Bool.false_ne_true]
      refine (routeFallible_truthful_iff (s := { s with connState := conns }) clustered).trans ?_
      exact ⟨fun spared _ _ => spared, fun spared => spared trivial rfl⟩

end

/-! With appends that go well, this is Basic.Publish as it is. -/

section
variable {env : Env} {s : BrokerState} {ctx : EnqueueCtx} {args : PublishArgs} {now : Instant}
  {outcome : Nat → Outcome}

theorem final_enqueueFallible (queue : String) :
    (enqueueFallible queue ctx now true : Act env (Option Bool)).final s =
      (enqueueSingle queue ctx now : Act env Unit).final s := by
  have pushes (q : QueueState) (s : BrokerState) :
      (pushFallible queue ctx now q true : Act env (Option Bool)).final s =
        (perform (.enqueue queue ctx now) : Act env Unit).final s := by
    unfold pushFallible
    rw [Bool.not_true, Bool.and_false, if_neg Bool.false_ne_true]
    rfl
  unfold enqueueFallible enqueueSingle
  rw [final_bind, final_bind]
  change final (match s.queues.get? queue with
    | none => _
    | some q => _ : Act env (Option Bool)) s = final (match s.queues.get? queue with
    | none => _
    | some q => _ : Act env Unit) s
  cases s.queues.get? queue with
  | none => rfl
  | some q =>
    dsimp only
    cases q.options.maxLength with
    | none => exact pushes q s
    | some maxLen =>
      dsimp only
      rw [final_bind, final_bind, pushes]

theorem final_enqueueToTargets (appends : ∀ i, (outcome i).appended = true)
    (targets : List String) :
    (enqueueToTargets ctx now targets outcome : Act env (List TargetReport)).final s =
      (targets.forM (fun queue => enqueueSingle queue ctx now) : Act env PUnit).final s := by
  induction targets generalizing s outcome with
  | nil => rfl
  | cons queue targets ih =>
    have rest := ih (fun i => appends (i + 1)) (s := (enqueueSingle queue ctx now :
      Act env Unit).final s)
    unfold enqueueToTargets
    rw [final_bind, final_bind, appends, final_enqueueFallible, rest]
    change _ = (enqueueSingle queue ctx now >>= fun _ => targets.forM fun queue =>
      enqueueSingle queue ctx now : Act env PUnit).final s
    rw [final_bind]
    rfl

theorem routeFallible_appended (appends : ∀ i, (outcome i).appended = true)
    (tag : Option UInt64) :
    (routeFallible args now tag outcome : Act env PublishReport).final s =
      (routePublish args now tag : Act env (List Frame)).final s ∧
    ((routeFallible args now tag outcome : Act env PublishReport).result s).frames =
      (routePublish args now tag : Act env (List Frame)).result s := by
  have confirms (targets : List String) (reports : List TargetReport) (t : BrokerState) :
      (replicateConfirmedPublishes tag targets reports outcome :
        Act env PublishReport).final t = t ∧
      ((replicateConfirmedPublishes tag targets reports outcome :
        Act env PublishReport).result t).frames = confirmAck tag := by
    cases tag with
    | none => exact ⟨rfl, rfl⟩
    | some tag => exact ⟨rfl, rfl⟩
  unfold routeFallible routePublish
  rw [final_bind, final_bind, result_bind, result_bind]
  change final (match s.exchanges.get? args.exchange with
    | none => _
    | some ex => _) s = final (match s.exchanges.get? args.exchange with
    | none => _
    | some ex => _) s ∧ PublishReport.frames (result (match s.exchanges.get? args.exchange with
    | none => _
    | some ex => _) s) = result (match s.exchanges.get? args.exchange with
    | none => _
    | some ex => _) s
  cases s.exchanges.get? args.exchange with
  | none => exact ⟨rfl, rfl⟩
  | some ex =>
    dsimp only
    split
    · exact ⟨rfl, rfl⟩
    rw [final_bind, final_bind, result_bind, result_bind]
    cases (look fun s => schemaFailure env s (args.targets env ex) args.body :
      Act env (Option (String × String))).result s with
    | some failure => exact ⟨rfl, rfl⟩
    | none =>
      dsimp only
      rw [final_bind, final_bind, result_bind, result_bind, (confirms _ _ _).1, (confirms _ _ _).2,
        final_enqueueToTargets appends]
      exact ⟨rfl, rfl⟩

theorem publishFallible_appended (connId : UInt64) (channel : UInt16)
    (appends : ∀ i, (outcome i).appended = true) :
    (publishFallible connId channel args now outcome : Act env PublishReport).final s =
      (basicPublish connId channel args now : Act env (List Frame)).final s ∧
    ((publishFallible connId channel args now outcome : Act env PublishReport).result s).frames =
      (basicPublish connId channel args now : Act env (List Frame)).result s := by
  rw [basicPublish_eq]
  unfold publishFallible
  rw [final_bind, final_bind, result_bind, result_bind]
  change final (if !checkPermission env s connId (·.write) args.exchange then _ else
      allocConfirmTag connId channel >>= _) s =
    final (if !checkPermission env s connId (·.write) args.exchange then _ else
      allocConfirmTag connId channel >>= _) s ∧
    PublishReport.frames (result (if !checkPermission env s connId (·.write) args.exchange then _
      else allocConfirmTag connId channel >>= _) s) =
    result (if !checkPermission env s connId (·.write) args.exchange then _ else
      allocConfirmTag connId channel >>= _) s
  split
  · exact ⟨rfl, rfl⟩
  rw [final_bind, final_bind, result_bind, result_bind, final_bind, final_bind, result_bind,
    result_bind]
  cases ((bufferTxPublish connId args : Act env Bool).result
    ((allocConfirmTag connId channel : Act env (Option UInt64)).final s)) with
  | true => exact ⟨rfl, rfl⟩
  | false => exact routeFallible_appended appends _

end

/-- What happens to a broker, with the outcomes that the calls of a publish have. -/
abbrev Happening := Op × (Nat → Outcome)

section
variable {env : Env}

def answerFallible (e : Happening) : Act env PublishReport :=
  match e.1 with
  | .basicPublish connId channel args now => publishFallible connId channel args now e.2
  | op => do return ⟨← handle op, [], []⟩

end

section
variable (env : Env)

def advance (s : BrokerState) (e : Happening) : BrokerState :=
  (answerFallible e : Act env PublishReport).final s

/-- A publish on a channel in confirm mode of a clustered broker is answered truthfully. -/
def ConfirmsTruly (s : BrokerState) (e : Happening) : Prop :=
  match e.1 with
  | .basicPublish connId channel args _ => ∀ tag, s.confirmTag? connId channel = some tag →
    s.cluster.isSome = true →
    ((answerFallible e : Act env PublishReport).result s).Truthful s args.ctx tag
  | _ => True

/-- No call fails for such a publish, the one that tells of a refusal included. -/
def NothingFails (s : BrokerState) (e : Happening) : Prop :=
  match e.1 with
  | .basicPublish connId channel args _ => ∀ tag, s.confirmTag? connId channel = some tag →
    s.cluster.isSome = true →
    checkPermission env s connId (·.write) args.exchange = true → s.inTx connId = false →
    args.Spared env s e.2
  | _ => True

end

/-- Whatever else happens: the confirms of a clustered broker are true exactly if no call
    fails for a message that it puts into a queue, or that it refuses. -/
theorem confirms_true_iff (env : Env) (s : BrokerState) (es : List Happening) :
    Along (advance env) (ConfirmsTruly env) s es ↔ Along (advance env) (NothingFails env) s es := by
  refine along_congr (along_true s es) fun s e _ => ?_
  obtain ⟨op, outcome⟩ := e
  unfold ConfirmsTruly NothingFails
  cases op with
  | basicPublish connId channel args now =>
    exact forall_congr' fun tag => forall_congr' fun confirms => forall_congr' fun clustered =>
      publishFallible_truthful_iff connId channel confirms clustered
  | _ => exact Iff.rfl

/-- A member of a cluster with a queue, and a client in confirm mode. -/
def confirming : BrokerState := reached (plainEnv 64 1) guestOnly (some ⟨1, 1, 1⟩)
  (session "q" ++ [.confirmSelect 1 1 false])

/-- The other members do not answer, and the publish is confirmed all the same. -/
theorem unreplicated_confirmed : ¬ Along (advance (plainEnv 64 1)) (ConfirmsTruly (plainEnv 64 1))
    confirming [(publishTo "q" true [7], fun _ => ⟨true, false⟩)] := by
  intro along
  have truthful := along.1 1 (by decide +kernel) (by decide +kernel)
  have acked : .basicAck 1 ∈ ((answerFallible (publishTo "q" true [7], fun _ => ⟨true, false⟩) :
      Act (plainEnv 64 1) PublishReport).result confirming).frames := by decide +kernel
  have reports : ((answerFallible (publishTo "q" true [7], fun _ => ⟨true, false⟩) :
      Act (plainEnv 64 1) PublishReport).result confirming).reports =
      [⟨"q", some true, some false⟩] := by decide +kernel
  have secured := (truthful.1 acked).2
  rw [reports] at secured
  exact absurd (secured _ List.mem_cons_self).1 (by decide)

end RocketmqBroker
