import RocketmqBroker.Publishing.Commit
import RocketmqBroker.Publishing.ShortNames
import RocketmqBroker.Queue.PriorityOrder

/-!
Schemas are checked for all targets before any of them takes the message. So a publish that one
schema refuses leaves the queues and the log as they are, and one that none refuses goes to
every target that exists.
-/
namespace RocketmqBroker
open Run.Program
open BigEndian

/-- The arguments of Channel.Close. The text has to fit a short string. -/
def buildChannelClose (code : Nat) (text : String) (classId methodId : Nat) : Written :=
  (Written.andThen (toBeBytes 2 code, true) (writeShortstr text)).andThen
    (toBeBytes 2 classId ++ toBeBytes 2 methodId, true)

theorem buildChannelClose_ok {text : String} (short : FitsShortstr text)
    (code classId methodId : Nat) : (buildChannelClose code text classId methodId).2 = true := by
  have written : (writeShortstr text).2 = true := writeShortstr_ok_iff.mpr short
  simp [buildChannelClose, Written.andThen, written]

/-- Why the schema of a queue refuses a body, if there are a queue and a schema and it does. -/
def schemaRefusal (env : Env) (s : BrokerState) (body : Bytes) (queue : String) :
    Option String := do
  let q ← s.queues.get? queue
  let schema ← q.schema
  env.validateMessage schema body

section
variable {env : Env} {s : BrokerState} {targets : List String} {body : Bytes}

theorem schemaFailure_eq : schemaFailure env s targets body =
    targets.findSome? fun queue => (schemaRefusal env s body queue).map fun d => (queue, d) := by
  unfold schemaFailure schemaRefusal
  congr 1
  funext queue
  cases s.queues.get? queue with
  | none => rfl
  | some q =>
    simp only [Option.bind_eq_bind, Option.bind_some]
    cases q.schema with
    | none => rfl
    | some schema => exact Option.map_eq_bind.symm

theorem schemaFailure_eq_none : schemaFailure env s targets body = none ↔
    ∀ queue ∈ targets, schemaRefusal env s body queue = none := by
  simp only [schemaFailure_eq, List.findSome?_eq_none_iff, Option.map_eq_none_iff]

theorem schemaFailure_eq_some {queue description : String}
    (failure : schemaFailure env s targets body = some (queue, description)) :
    queue ∈ targets ∧ schemaRefusal env s body queue = some description := by
  rw [schemaFailure_eq] at failure
  obtain ⟨target, member, found⟩ := List.exists_of_findSome?_eq_some failure
  obtain ⟨d, refused, same⟩ := Option.map_eq_some_iff.mp found
  obtain ⟨rfl, rfl⟩ := Prod.mk.inj same
  exact ⟨member, refused⟩

end

section
variable {env : Env} {queue : String} {ctx : EnqueueCtx} {now : Instant} {q q' : QueueState}

theorem QueueState.entry_mem_accept (wal : SegmentCoordinator) (msgId : UInt64) :
    q.entry env wal queue msgId ctx now ∈
      (q.accept env wal queue msgId ctx now).messages.ready := by
  change _ ∈ (q.makeRoom.messages.pushBack (q.entry env wal queue msgId ctx now)).ready
  rw [PriorityQueue.ready_pushBack_eq]
  exact List.mem_append_right _ List.mem_cons_self

theorem QueueState.Accepts.holds {k : Nat} (accepts : Accepts env queue ctx now k q q')
    (some_taken : 0 < k) : ∃ wal msgId,
      q.entry env wal queue msgId ctx now ∈ q'.messages.ready := by
  induction accepts with
  | done q => exact absurd some_taken (Nat.lt_irrefl 0)
  | @next k q q' wal msgId rest ih =>
    rcases Nat.eq_zero_or_pos k with rfl | more
    · cases rest
      exact ⟨wal, msgId, entry_mem_accept wal msgId⟩
    · obtain ⟨wal', msgId', held⟩ := ih more
      rw [entry_congr accept_options] at held
      exact ⟨wal', msgId', held⟩

end

section
variable {env : Env} {s : BrokerState} {args : PublishArgs} {now : Instant} {tag : Option UInt64}
  {ex : Exchange}

theorem routePublish_refused {queue description : String}
    (fits : FitsShortstr (env.schemaReplyText queue (.validation description)))
    (found : s.exchanges.get? args.exchange = some ex)
    (failure : schemaFailure env s (args.targets env ex) args.body = some (queue, description)) :
    (routePublish args now tag : Act env (List Frame)).final s = s ∧
      (routePublish args now tag : Act env (List Frame)).result s =
        .channelClose preconditionFailed (env.schemaReplyText queue (.validation description))
          classBasic methodBasicPublish :: tag.toList.map .basicNack := by
  have routed : (args.targets env ex).isEmpty = false := by
    cases targets : args.targets env ex with
    | nil => rw [targets] at failure; cases failure
    | cons => rfl
  unfold routePublish
  rw [final_bind, result_bind, result_look, final_look, found]
  dsimp only
  rw [routed]
  simp only [Bool.false_eq_true, if_false]
  rw [final_bind, result_bind, result_look, final_look, failure]
  exact ⟨rfl, (nack_behind_close _ _ _ _ tag).trans (if_pos fits)⟩

theorem routePublish_accepted (found : s.exchanges.get? args.exchange = some ex)
    (accepted : schemaFailure env s (args.targets env ex) args.body = none) :
    (routePublish args now tag : Act env (List Frame)).final s =
      (pushAll args.ctx now (args.targets env ex) : Act env PUnit).final s := by
  unfold routePublish
  rw [final_bind, result_look, final_look, found]
  dsimp only
  split
  · rename_i unrouted
    rw [List.isEmpty_iff.mp unrouted]
    rfl
  · rw [final_bind, result_look, final_look, accepted]
    exact final_bind _ _ _

end

/-- Either a schema refuses, and all that is left of the publish is its tag, the error and a nack;
    or none does, and every target that exists has the message. -/
theorem publish_all_or_nothing (env : Env) (s : BrokerState) (connId : UInt64) (channel : UInt16)
    (args : PublishArgs) (now : Instant) (ex : Exchange) (direct : s.inTx connId = false)
    (permitted : checkPermission env s connId (·.write) args.exchange = true)
    (found : s.exchanges.get? args.exchange = some ex)
    (short : ∀ queue ∈ args.targets env ex, ∀ d ∈ schemaRefusal env s args.body queue,
      FitsShortstr (env.schemaReplyText queue (.validation d))) :
    let targets := args.targets env ex
    let after := served env s (.basicPublish connId channel args now)
    ((∃ queue ∈ targets, schemaRefusal env s args.body queue ≠ none) →
      after = s.numbered connId channel ∧ after.queues = s.queues ∧ after.wal = s.wal ∧
      ∃ queue ∈ targets, ∃ d, schemaRefusal env s args.body queue = some d ∧
        (buildChannelClose preconditionFailed (env.schemaReplyText queue (.validation d)) classBasic
          methodBasicPublish).2 = true ∧
        answer env s (.basicPublish connId channel args now) =
          .channelClose preconditionFailed (env.schemaReplyText queue (.validation d)) classBasic
            methodBasicPublish :: (s.confirmTag? connId channel).toList.map .basicNack) ∧
    ((∀ queue ∈ targets, schemaRefusal env s args.body queue = none) →
      after = (pushAll args.ctx now targets : Act env PUnit).final (s.numbered connId channel) ∧
      ∀ queue ∈ targets, ∀ q ∈ s.queues.get? queue, ∃ q' wal msgId,
        after.queues.get? queue = some q' ∧
          q.entry env wal queue msgId args.ctx now ∈ q'.messages.ready) := by
  intro targets after
  obtain ⟨conns, numbered⟩ := s.numbered_connState connId channel
  obtain ⟨said, ends⟩ := @basicPublish_permitted env s connId channel args now permitted
  rw [direct, if_neg Bool.false_ne_true] at said ends
  have found' : (s.numbered connId channel).exchanges.get? args.exchange = some ex := by
    rw [numbered]
    exact found
  have same : schemaFailure env (s.numbered connId channel) targets args.body =
      schemaFailure env s targets args.body := by
    rw [numbered]
    rfl
  constructor
  · rintro ⟨queue, member, refused⟩
    cases failure : schemaFailure env s targets args.body with
    | none => exact absurd (schemaFailure_eq_none.mp failure queue member) refused
    | some failed =>
      obtain ⟨name, description⟩ := failed
      obtain ⟨target, reason⟩ := schemaFailure_eq_some failure
      have fits := short name target description reason
      obtain ⟨still, told⟩ := @routePublish_refused env _ args now (s.confirmTag? connId channel)
        ex name description fits found' (same.trans failure)
      have final : after = s.numbered connId channel := ends.trans still
      refine ⟨final, ?_, ?_, name, target, description, reason, ?_, said.trans told⟩
      · rw [final, numbered]
      · rw [final, numbered]
      · exact buildChannelClose_ok fits _ _ _
  · intro accepted
    have final : after = (pushAll args.ctx now targets : Act env PUnit).final
        (s.numbered connId channel) :=
      ends.trans (routePublish_accepted found' (same.trans (schemaFailure_eq_none.mpr accepted)))
    refine ⟨final, ?_⟩
    intro queue member q here
    have here' : (s.numbered connId channel).queues.get? queue = some q := by
      rw [numbered]
      exact here
    obtain ⟨q', there, accepts⟩ := @pushAll_accepts env _ args.ctx now queue q here' targets
    obtain ⟨wal, msgId, held⟩ := accepts.holds (List.count_pos_iff.mpr member)
    exact ⟨q', wal, msgId, by rw [final]; exact there, held⟩

def strictEnv : Env :=
  { plainEnv 64 1 with
    proto := ⟨fun _ => some [], fun _ => some ["M"]⟩
    schemaReplyText := fun queue _ => queue
    validateMessage := fun _ body => if body.isEmpty then some "empty" else none }

def strictQueue : BrokerState := reached strictEnv guestOnly none
  (session "plain" ++ [.queueDeclare 1 ⟨"strict", false, true, false, false, false,
      [("x-schema", .longString []), ("x-schema-type", .longString (strBytes "protobuf")),
        ("x-schema-message", .longString (strBytes "M"))]⟩ 0,
    .queueBind "plain" "amq.fanout" "" false, .queueBind "strict" "amq.fanout" "" false,
    .confirmSelect 1 1 false])

def strictFanout : Exchange :=
  ⟨"amq.fanout", .fanout, true, [⟨"plain", "", none⟩, ⟨"strict", "", none⟩]⟩

theorem publish_all_or_nothing_refused :
    let op : Op := .basicPublish 1 1 ⟨"amq.fanout", "", false, .default, []⟩ 0
    (served strictEnv strictQueue op).queues = strictQueue.queues ∧
      answer strictEnv strictQueue op = [.channelClose preconditionFailed "strict" classBasic
        methodBasicPublish, .basicNack 1] := by
  have whole := (publish_all_or_nothing strictEnv strictQueue 1 1
    ⟨"amq.fanout", "", false, .default, []⟩ 0 strictFanout (by decide +kernel)
    (by decide +kernel) (by decide +kernel) (by decide +kernel)).1
      ⟨"strict", by decide +kernel, by decide +kernel⟩
  exact ⟨whole.2.1, by decide +kernel⟩

end RocketmqBroker
