import RocketmqBroker.Publishing.Direct
import RocketmqBroker.Queue.MaxLength

/-!
What Basic.Publish does to each queue: which queues receive the message, and what a queue
makes of it. A queue evicts while it is full, and gives the message its own expiration,
priority and place in the log.
-/
namespace RocketmqBroker
open Run Run.Program

namespace QueueState

/-- `evict_overflow` on the queue alone. -/
def evict (maxLen : Nat) : Nat → QueueState → QueueState
  | 0, q => q
  | fuel + 1, q =>
    if q.messages.len ≥ maxLen && !q.messages.isEmpty then q.dropOldest.evict maxLen fuel else q

def makeRoom (q : QueueState) : QueueState :=
  match q.options.maxLength with
  | none => q
  | some maxLen => q.evict maxLen q.messages.len

def entry (env : Env) (wal : SegmentCoordinator) (queue : String) (msgId : UInt64)
    (ctx : EnqueueCtx) (now : Instant) (q : QueueState) : QueueMessage :=
  buildQueueMessage msgId (capPriority ctx.priority q.options.maxPriority)
    (resolveTtl q.options.messageTtl ctx.perMsgTtl now)
    (persistIfDurable env wal q queue msgId ctx) ctx

def accept (env : Env) (wal : SegmentCoordinator) (queue : String) (msgId : UInt64)
    (ctx : EnqueueCtx) (now : Instant) (q : QueueState) : QueueState :=
  { q.makeRoom.pushBack (q.entry env wal queue msgId ctx now) with lastActivity := now }

inductive Accepts (env : Env) (queue : String) (ctx : EnqueueCtx) (now : Instant) :
    Nat → QueueState → QueueState → Prop
  | done (q : QueueState) : Accepts env queue ctx now 0 q q
  | next {k : Nat} {q q' : QueueState} (wal : SegmentCoordinator) (msgId : UInt64) :
      Accepts env queue ctx now k (q.accept env wal queue msgId ctx now) q' →
      Accepts env queue ctx now (k + 1) q q'

variable {q : QueueState}

theorem dropOldest_options : q.dropOldest.options = q.options := by
  unfold dropOldest
  split <;> rfl

theorem evict_messages (maxLen fuel : Nat) :
    { q.evict maxLen fuel with messages := q.messages } = q := by
  induction fuel generalizing q with
  | zero => rfl
  | succ fuel ih =>
    unfold evict
    split
    · have rest := ih (q := q.dropOldest)
      have first : { q.dropOldest with messages := q.messages } = q := by
        unfold dropOldest
        split <;> rfl
      calc { q.dropOldest.evict maxLen fuel with messages := q.messages } =
          { { q.dropOldest.evict maxLen fuel with messages := q.dropOldest.messages } with
            messages := q.messages } := rfl
        _ = { q.dropOldest with messages := q.messages } := by rw [rest]
        _ = q := first
    · rfl

theorem makeRoom_messages : { q.makeRoom with messages := q.messages } = q := by
  unfold makeRoom
  split
  · rfl
  · exact evict_messages _ _

theorem makeRoom_options : q.makeRoom.options = q.options :=
  (congrArg QueueState.options (makeRoom_messages (q := q)) :)

theorem accept_options {env : Env} {wal : SegmentCoordinator} {queue : String} {msgId : UInt64}
    {ctx : EnqueueCtx} {now : Instant} :
    (q.accept env wal queue msgId ctx now).options = q.options :=
  makeRoom_options

theorem entry_congr {env : Env} {wal : SegmentCoordinator} {queue : String} {msgId : UInt64}
    {ctx : EnqueueCtx} {now : Instant} {q' : QueueState} (same : q'.options = q.options) :
    q'.entry env wal queue msgId ctx now = q.entry env wal queue msgId ctx now := by
  unfold entry persistIfDurable
  rw [same]

def persists (q : QueueState) (ctx : EnqueueCtx) : Bool := q.options.durable && ctx.isPersistent

theorem persistIfDurable_eq_none {env : Env} {wal : SegmentCoordinator} {queue : String}
    {msgId : UInt64} {ctx : EnqueueCtx} :
    persistIfDurable env wal q queue msgId ctx = none ↔ q.persists ctx = false := by
  unfold persistIfDurable persists
  cases q.options.durable <;> cases ctx.isPersistent <;> simp

end QueueState

section
variable {env : Env} {s : BrokerState} {queue : String} {ctx : EnqueueCtx} {now : Instant}

theorem get?_evictOverflow (maxLen fuel : Nat) (name : String) :
    ((evictOverflow queue maxLen fuel : Act env Unit).final s).queues.get? name =
      if name = queue then (s.queues.get? name).map (·.evict maxLen fuel)
      else s.queues.get? name := by
  induction fuel generalizing s with
  | zero =>
    split
    · exact Option.map_id'.symm
    · rfl
  | succ fuel ih =>
    unfold evictOverflow
    rw [final_bind]
    change (final (if (s.queues.get? queue).any fun q =>
      q.messages.len ≥ maxLen && !q.messages.isEmpty then _ else _) s).queues.get? name = _
    have popped : (exec env s (.popOldest queue)).queues.get? name =
        if name = queue then (s.queues.get? name).map (·.dropOldest) else s.queues.get? name := by
      rw [(exec_memory env s _).1]
      exact get?_modifyQueue s queue name _
    cases found : s.queues.get? queue with
    | none =>
      have still : s.queues.get? name = if name = queue then
          (s.queues.get? name).map (·.evict maxLen (fuel + 1)) else s.queues.get? name := by
        split
        · rename_i same
          rw [same, found]
          rfl
        · rfl
      exact still
    | some q =>
      rw [Option.any_some]
      split
      · rename_i tooLong
        rw [final_bind]
        refine (ih (s := exec env s (.popOldest queue))).trans ?_
        rw [popped]
        split
        · rename_i same
          rw [same, found, Option.map_some, Option.map_some, Option.map_some, QueueState.evict,
            if_pos tooLong]
        · rfl
      · rename_i roomy
        split
        · rename_i same
          rw [same, final_pure, found, Option.map_some, QueueState.evict, if_neg roomy]
        · rfl

theorem kept_evictOverflow (maxLen fuel : Nat) :
    ((evictOverflow queue maxLen fuel : Act env Unit).final s).wal = s.wal ∧
      ((evictOverflow queue maxLen fuel : Act env Unit).final s).nextMsgId = s.nextMsgId := by
  have turns : Takes (fun e => .popOldest queue = e)
      (evictOverflow queue maxLen fuel : Act env Unit) := takes_evictOverflow rfl maxLen fuel
  refine turns.keeps (P := fun t => t.wal = s.wal ∧ t.nextMsgId = s.nextMsgId)
    (fun t e oldest before => ?_) ⟨rfl, rfl⟩
  subst oldest
  exact before

def roomFor (queue : String) (q : QueueState) : Act env Unit :=
  match q.options.maxLength with
  | some maxLen => evictOverflow queue maxLen q.messages.len
  | none => pure ()

theorem get?_roomFor {q : QueueState} (found : s.queues.get? queue = some q) (name : String) :
    ((roomFor queue q : Act env Unit).final s).queues.get? name =
      if name = queue then some q.makeRoom else s.queues.get? name := by
  unfold roomFor QueueState.makeRoom
  cases q.options.maxLength with
  | none =>
    dsimp only
    split
    · rename_i same
      rw [same]
      exact found
    · rfl
  | some maxLen =>
    dsimp only
    refine (get?_evictOverflow maxLen q.messages.len name).trans ?_
    split
    · rename_i same
      rw [same, found]
      rfl
    · rfl

theorem kept_roomFor (queue : String) (q : QueueState) :
    ((roomFor queue q : Act env Unit).final s).wal = s.wal ∧
      ((roomFor queue q : Act env Unit).final s).nextMsgId = s.nextMsgId := by
  unfold roomFor
  cases q.options.maxLength with
  | none => exact ⟨rfl, rfl⟩
  | some maxLen => exact kept_evictOverflow maxLen q.messages.len

theorem enqueueSingle_found {q : QueueState} (found : s.queues.get? queue = some q) :
    (enqueueSingle queue ctx now : Act env Unit).final s =
      (exec env ((roomFor queue q : Act env Unit).final s) (.enqueue queue ctx now)) := by
  unfold enqueueSingle roomFor
  rw [final_bind, result_look, final_look, found]
  dsimp only
  cases q.options.maxLength with
  | none => rfl
  | some maxLen => exact final_bind _ _ _

theorem enqueueSingle_missing (missing : s.queues.get? queue = none) :
    (enqueueSingle queue ctx now : Act env Unit).final s =
      exec env s (.enqueue queue ctx now) := by
  unfold enqueueSingle
  rw [final_bind, result_look, final_look, missing]
  rfl

theorem get?_enqueue (name : String) :
    (exec env s (.enqueue queue ctx now)).queues.get? name =
      if name = queue then (s.queues.get? name).map fun q =>
        { q.pushBack (q.entry env s.wal queue s.nextMsgId ctx now) with lastActivity := now }
      else s.queues.get? name := by
  rw [(exec_memory env s _).1]
  exact get?_modifyQueue s.allocMsgId.2 queue name _

theorem wal_enqueue (unlogged : ∀ q ∈ s.queues.get? queue, q.persists ctx = false) :
    (exec env s (.enqueue queue ctx now)).wal = s.wal := by
  have none : (Effect.enqueue queue ctx now).logged s = [] := by
    simp only [Effect.logged]
    cases found : s.queues.get? queue with
    | none => rfl
    | some q =>
      have kept := unlogged q found
      have skipped : (!q.options.durable || !ctx.isPersistent) = true := by
        rw [← Bool.not_and]
        exact congrArg not kept
      exact if_pos skipped
  change s.wal.logAll env.crc32 (((Effect.enqueue queue ctx now).logged s).map _) = s.wal
  rw [none]
  rfl

theorem get?_enqueueSingle (name : String) :
    ((enqueueSingle queue ctx now : Act env Unit).final s).queues.get? name =
      if name = queue then
        (s.queues.get? name).map (·.accept env s.wal queue s.nextMsgId ctx now)
      else s.queues.get? name := by
  cases found : s.queues.get? queue with
  | none =>
    rw [enqueueSingle_missing found, get?_enqueue]
    split
    · rename_i same
      rw [same, found]
      rfl
    · rfl
  | some q =>
    obtain ⟨wal, msgId⟩ := @kept_roomFor env s queue q
    rw [enqueueSingle_found found, get?_enqueue, get?_roomFor found, wal, msgId]
    split
    · rename_i same
      rw [same, found, Option.map_some, Option.map_some,
        QueueState.entry_congr QueueState.makeRoom_options]
      rfl
    · rfl

theorem wal_enqueueSingle (unlogged : ∀ q ∈ s.queues.get? queue, q.persists ctx = false) :
    ((enqueueSingle queue ctx now : Act env Unit).final s).wal = s.wal := by
  cases found : s.queues.get? queue with
  | none =>
    rw [enqueueSingle_missing found]
    exact wal_enqueue unlogged
  | some q =>
    rw [enqueueSingle_found found]
    refine (wal_enqueue ?_).trans (kept_roomFor queue q).1
    intro q' there
    rw [Option.mem_def, get?_roomFor found, if_pos rfl] at there
    obtain rfl := Option.some.inj there
    unfold QueueState.persists
    rw [QueueState.makeRoom_options]
    exact unlogged q found

abbrev pushAll (ctx : EnqueueCtx) (now : Instant) (targets : List String) : Act env PUnit :=
  targets.forM fun queue => enqueueSingle queue ctx now

theorem final_pushAll_cons (queue : String) (targets : List String) :
    (pushAll ctx now (queue :: targets) : Act env PUnit).final s =
      (pushAll ctx now targets : Act env PUnit).final
        ((enqueueSingle queue ctx now : Act env Unit).final s) := final_bind _ _ _

theorem pushAll_missing {name : String} (missing : s.queues.get? name = none)
    (targets : List String) :
    ((pushAll ctx now targets : Act env PUnit).final s).queues.get? name = none := by
  induction targets generalizing s with
  | nil => exact missing
  | cons queue targets ih =>
    rw [final_pushAll_cons]
    refine ih ?_
    rw [get?_enqueueSingle, missing]
    exact ite_self none

/-- A queue takes the message as often as it is among the targets. -/
theorem pushAll_accepts {name : String} {q : QueueState} (found : s.queues.get? name = some q)
    (targets : List String) :
    ∃ q', ((pushAll ctx now targets : Act env PUnit).final s).queues.get? name = some q' ∧
      QueueState.Accepts env name ctx now (targets.count name) q q' := by
  induction targets generalizing s q with
  | nil => exact ⟨q, found, .done q⟩
  | cons queue targets ih =>
    have first := @get?_enqueueSingle env s queue ctx now name
    rw [final_pushAll_cons]
    by_cases same : name = queue
    · subst same
      rw [if_pos rfl, found] at first
      obtain ⟨q', there, accepts⟩ := ih first
      rw [List.count_cons_self]
      exact ⟨q', there, .next s.wal s.nextMsgId accepts⟩
    · rw [if_neg same] at first
      rw [List.count_cons_of_ne (Ne.symm same)]
      exact ih (first.trans found)

theorem wal_pushAll {targets : List String} (unlogged : ∀ queue ∈ targets,
    ∀ q ∈ s.queues.get? queue, q.persists ctx = false) :
    ((pushAll ctx now targets : Act env PUnit).final s).wal = s.wal := by
  induction targets generalizing s with
  | nil => rfl
  | cons queue targets ih =>
    rw [final_pushAll_cons]
    refine (ih ?_).trans (wal_enqueueSingle (unlogged queue List.mem_cons_self))
    intro name member q' there
    rw [Option.mem_def, get?_enqueueSingle] at there
    have kept := unlogged name (List.mem_cons_of_mem _ member)
    split at there
    · obtain ⟨q, found, rfl⟩ := Option.map_eq_some_iff.mp there
      unfold QueueState.persists
      rw [QueueState.accept_options]
      exact kept q found
    · exact kept q' there

def PublishArgs.receivers (env : Env) (s : BrokerState) (args : PublishArgs) : List String :=
  match s.exchanges.get? args.exchange with
  | none => []
  | some ex =>
    if (schemaFailure env s (args.targets env ex) args.body).isSome then []
    else (args.targets env ex).filter (s.queues.contains ·)

variable {args : PublishArgs} {tag : Option UInt64}

theorem routePublish_pushes : ∃ targets : List String,
    (routePublish args now tag : Act env (List Frame)).final s =
      (pushAll args.ctx now targets : Act env PUnit).final s ∧
    targets.filter (s.queues.contains ·) = args.receivers env s := by
  unfold routePublish PublishArgs.receivers
  rw [final_bind, result_look, final_look]
  cases s.exchanges.get? args.exchange with
  | none => exact ⟨[], rfl, rfl⟩
  | some ex =>
    dsimp only
    split
    · rename_i unrouted
      have none : args.targets env ex = [] := List.isEmpty_iff.mp unrouted
      rw [none]
      exact ⟨[], rfl, (ite_self []).symm⟩
    rw [final_bind, result_look, final_look]
    cases schemaFailure env s (args.targets env ex) args.body with
    | some failure => exact ⟨[], rfl, rfl⟩
    | none => exact ⟨args.targets env ex, final_bind _ _ _, rfl⟩

/-- What a publish does to a queue is decided by how often the queue receives it. -/
theorem routePublish_accepts {name : String} {q : QueueState}
    (found : s.queues.get? name = some q) :
    ∃ q', ((routePublish args now tag : Act env (List Frame)).final s).queues.get? name = some q' ∧
      QueueState.Accepts env name args.ctx now ((args.receivers env s).count name) q q' := by
  obtain ⟨targets, same, receivers⟩ := @routePublish_pushes env s now args tag
  have present : s.queues.contains name = true := Option.isSome_iff_exists.mpr ⟨q, found⟩
  rw [same, ← receivers, List.count_filter present]
  exact pushAll_accepts found targets

theorem routePublish_missing {name : String} (missing : s.queues.get? name = none) :
    ((routePublish args now tag : Act env (List Frame)).final s).queues.get? name = none := by
  obtain ⟨targets, same, -⟩ := @routePublish_pushes env s now args tag
  rw [same]
  exact pushAll_missing missing targets

theorem wal_routePublish (unlogged : ∀ queue ∈ args.receivers env s,
    ∀ q ∈ s.queues.get? queue, q.persists args.ctx = false) :
    ((routePublish args now tag : Act env (List Frame)).final s).wal = s.wal := by
  obtain ⟨targets, same, receivers⟩ := @routePublish_pushes env s now args tag
  rw [same]
  refine wal_pushAll ?_
  intro queue member q found
  refine unlogged queue ?_ q found
  rw [← receivers]
  exact List.mem_filter.mpr ⟨member, Option.isSome_iff_exists.mpr ⟨q, found⟩⟩

end

end RocketmqBroker
