import RocketmqBroker.Publishing.Validation

/-!
Tx.Commit over any buffer. Schemas are checked for the whole buffer before anything is applied;
then the publishes go behind what their queues hold and the acks settle what is in flight, in
the order in which they were buffered.
-/
namespace RocketmqBroker
open Run Run.Program

def BrokerState.outstandingTag (s : BrokerState) (tag : UInt64) : Bool :=
  (s.deliveryIndex.get? tag).any fun queue =>
    (s.queues.get? queue).any fun q => q.inflight.contains tag

def committedTo (queue : String) : UInt64 → List PendingOp → List QueueMessage
  | _, [] => []
  | next, .publish exchange routingKey headers body :: ops =>
    (if queue = routingKey then [.full (.newRouted next headers body exchange routingKey)] else []) ++
      committedTo queue (next + 1) ops
  | next, .ack _ :: ops => committedTo queue next ops

def settledBy : (UInt64 → Bool) → List PendingOp → List UInt64
  | _, [] => []
  | live, .publish .. :: ops => settledBy live ops
  | live, .ack tag :: ops =>
    (if live tag then [tag] else []) ++ settledBy (fun t => live t && t != tag) ops

def PendingOp.ackTag : PendingOp → Option UInt64
  | .publish .. => none
  | .ack tag => some tag

structure Applied (env : Env) (connId : UInt64) (ops : List PendingOp) (s t : BrokerState) :
    Prop where
  queues : ∀ name q, s.queues.get? name = some q → ∃ q', t.queues.get? name = some q' ∧
    q'.messages.ready = q.messages.ready ++ committedTo name s.nextMsgId ops ∧
    ∀ tag, q'.inflight.get? tag =
      if tag ∈ settledBy s.outstandingTag ops ∧ s.deliveryIndex.get? tag = some name then none
      else q.inflight.get? tag
  missing : ∀ name, s.queues.get? name = none → t.queues.get? name = none
  index : ∀ tag, t.deliveryIndex.get? tag =
    if tag ∈ ops.filterMap PendingOp.ackTag then none else s.deliveryIndex.get? tag
  deliveries : ∀ c, t.connDeliveries.get? c = (s.connDeliveries.get? c).map
    (List.filter fun d => c ≠ connId ∨ d.2 ∉ settledBy s.outstandingTag ops)
  logged : t.wal = s.wal.logAll env.crc32
    ((settledBy s.outstandingTag ops).map fun tag => (LogRecord.ack tag).encode)

theorem mem_settledBy {live : UInt64 → Bool} {ops : List PendingOp} {tag : UInt64} :
    tag ∈ settledBy live ops ↔ live tag = true ∧ tag ∈ ops.filterMap PendingOp.ackTag := by
  induction ops generalizing live with
  | nil => simp [settledBy]
  | cons op ops ih =>
    cases op with
    | publish exchange routingKey headers body => exact ih
    | ack first =>
      have split : tag ∈ (if live first then [first] else []) ↔ tag = first ∧ live first = true := by
        split
        · simp [*]
        · simp [*]
      have acks : (PendingOp.ack first :: ops).filterMap PendingOp.ackTag =
          first :: ops.filterMap PendingOp.ackTag := rfl
      rw [settledBy, List.mem_append, ih, split, acks, List.mem_cons, Bool.and_eq_true, bne_iff_ne]
      by_cases same : tag = first
      · subst same
        simp
      · simp [same]

section
variable {env : Env} {s : BrokerState} {connId : UInt64}

theorem applied_publish (exchange routingKey : String) (headers body : Bytes) :
    let t := (applyTxOp connId (.publish exchange routingKey headers body) : Act env Unit).final s
    t.nextMsgId = s.nextMsgId + 1 ∧ t.wal = s.wal ∧ t.deliveryIndex = s.deliveryIndex ∧
      t.connDeliveries = s.connDeliveries ∧
      ∀ name, t.queues.get? name = if name = routingKey then
        (s.queues.get? name).map (·.pushBack
          (.full (.newRouted s.nextMsgId headers body exchange routingKey)))
        else s.queues.get? name :=
  ⟨rfl, rfl, rfl, rfl, get?_enqueueFull routingKey exchange routingKey headers body⟩

def BrokerState.acked (env : Env) (s : BrokerState) (connId tag : UInt64) : BrokerState :=
  let forgotten := { s with deliveryIndex := s.deliveryIndex.erase tag }
  match (s.deliveryIndex.get? tag).filter fun queue =>
    (s.queues.get? queue).any fun q => q.inflight.contains tag with
  | none => forgotten
  | some queue =>
    { forgotten with
      queues := s.queues.modify queue (·.release tag)
      wal := s.wal.logAll env.crc32 [(LogRecord.ack tag).encode]
      connDeliveries := s.connDeliveries.modify connId (List.filter fun d => d.2 != tag) }

theorem applied_ack (tag : UInt64) :
    (applyTxOp connId (.ack tag) : Act env Unit).final s = s.acked env connId tag := by
  have forgotten : (takeDelivery tag : Act env (Option String)).final s =
      { s with deliveryIndex := s.deliveryIndex.erase tag } := exec_books _
  have found : (takeDelivery tag : Act env (Option String)).result s =
      (s.deliveryIndex.get? tag).filter fun queue =>
        (s.queues.get? queue).any fun q => q.inflight.contains tag := rfl
  unfold applyTxOp BrokerState.acked
  dsimp only
  rw [final_bind, found, forgotten]
  cases here : (s.deliveryIndex.get? tag).filter fun queue =>
      (s.queues.get? queue).any fun q => q.inflight.contains tag with
  | none => rfl
  | some queue =>
    obtain ⟨-, held⟩ := Option.filter_eq_some_iff.mp here
    cases present : s.queues.get? queue with
    | none =>
      rw [present] at held
      cases held
    | some q =>
      rw [present, Option.any_some] at held
      have logged : (Effect.settle queue tag).logged
          { s with deliveryIndex := s.deliveryIndex.erase tag } = [.ack tag] := by
        simp only [Effect.logged]
        rw [present]
        exact if_pos held
      dsimp only
      rw [final_bind]
      change exec env (exec env _ (.settle queue tag)) (.books _) = _
      rw [exec_books]
      change { s with
        deliveryIndex := s.deliveryIndex.erase tag
        queues := s.queues.modify queue (·.release tag)
        wal := s.wal.logAll env.crc32 (((Effect.settle queue tag).logged
          { s with deliveryIndex := s.deliveryIndex.erase tag }).map LogRecord.encode)
        connDeliveries := s.connDeliveries.modify connId (List.filter fun d => d.2 != tag) } = _
      rw [logged]
      rfl

theorem map_filter_true {α : Type} (found : Option (List α)) :
    found.map (List.filter fun _ => true) = found := by
  cases found with
  | none => rfl
  | some xs => exact congrArg some (List.filter_eq_self.mpr fun _ _ => rfl)

theorem acked_spec (tag : UInt64) :
    let t := s.acked env connId tag
    t.nextMsgId = s.nextMsgId ∧
    (∀ i, t.deliveryIndex.get? i = if i = tag then none else s.deliveryIndex.get? i) ∧
    (∀ name, t.queues.get? name = (s.queues.get? name).map fun q =>
      if s.outstandingTag tag ∧ s.deliveryIndex.get? tag = some name then q.release tag else q) ∧
    (∀ c, t.connDeliveries.get? c = (s.connDeliveries.get? c).map
      (List.filter fun d => c ≠ connId ∨ ¬ (d.2 = tag ∧ s.outstandingTag tag))) ∧
    t.wal = s.wal.logAll env.crc32
      ((if s.outstandingTag tag then [tag] else []).map fun i => (LogRecord.ack i).encode) := by
  have known : s.outstandingTag tag = true ↔ ∃ queue, (s.deliveryIndex.get? tag).filter (fun queue =>
      (s.queues.get? queue).any fun q => q.inflight.contains tag) = some queue := by
    rw [← Option.isSome_iff_exists, Option.isSome_filter]
    rfl
  unfold BrokerState.acked
  dsimp only
  cases here : (s.deliveryIndex.get? tag).filter fun queue =>
      (s.queues.get? queue).any fun q => q.inflight.contains tag with
  | none =>
    have dead : s.outstandingTag tag = false := by
      rw [here] at known
      exact Bool.eq_false_iff.mpr fun live => by
        obtain ⟨_, none⟩ := known.mp live
        cases none
    refine ⟨rfl, fun i => FinMap.get?_erase .., fun name => ?_, fun c => ?_, ?_⟩
    · simp [dead]
    · simp [dead, map_filter_true]
    · simp [dead, SegmentCoordinator.logAll]
  | some queue =>
    have live : s.outstandingTag tag = true := known.mpr ⟨queue, here⟩
    obtain ⟨index, -⟩ := Option.filter_eq_some_iff.mp here
    refine ⟨rfl, fun i => FinMap.get?_erase .., fun name => ?_, fun c => ?_, ?_⟩
    · rw [FinMap.get?_modify, index]
      by_cases same : name = queue
      · simp [same, live]
      · simp [same, live, Ne.symm same]
    · rw [FinMap.get?_modify]
      by_cases same : c = connId
      · simp only [same, live, ↓reduceIte, ne_eq, not_true_eq_false, and_true, false_or,
          decide_not]
        rfl
      · simp [same, map_filter_true]
    · simp [live]

theorem outstandingTag_publish (exchange routingKey : String) (headers body : Bytes) :
    ((applyTxOp connId (.publish exchange routingKey headers body) : Act env Unit).final
      s).outstandingTag = s.outstandingTag := by
  obtain ⟨-, -, index, -, queues⟩ :=
    @applied_publish env s connId exchange routingKey headers body
  funext tag
  unfold BrokerState.outstandingTag
  rw [index]
  congr 1
  funext name
  rw [queues name]
  split
  · rw [Option.any_map]
    rfl
  · rfl

theorem outstandingTag_acked (tag : UInt64) :
    (s.acked env connId tag).outstandingTag = fun i => s.outstandingTag i && i != tag := by
  obtain ⟨-, index, queues, -, -⟩ := @acked_spec env s connId tag
  funext i
  unfold BrokerState.outstandingTag
  rw [index i]
  by_cases same : i = tag
  · simp [same]
  · rw [if_neg same, bne_iff_ne.mpr same, Bool.and_true]
    congr 1
    funext name
    rw [queues name, Option.any_map]
    congr 1
    funext q
    split
    · exact FinMap.contains_erase_ne same
    · rfl

theorem Applied.publish {exchange routingKey : String} {headers body : Bytes} {ops : List PendingOp}
    {t : BrokerState} (rest : Applied env connId ops
      ((applyTxOp connId (.publish exchange routingKey headers body) : Act env Unit).final s) t) :
    Applied env connId (.publish exchange routingKey headers body :: ops) s t := by
  obtain ⟨next, wal, index, deliveries, queues⟩ :=
    @applied_publish env s connId exchange routingKey headers body
  have live := @outstandingTag_publish env s connId exchange routingKey headers body
  constructor
  · intro name q found
    have first := queues name
    rw [found] at first
    by_cases mine : name = routingKey
    · rw [if_pos mine] at first
      obtain ⟨q', there, ready, inflight⟩ := rest.queues name _ first
      refine ⟨q', there, ?_, ?_⟩
      · rw [ready, next, committedTo, if_pos mine, ← List.append_assoc]
        exact congrArg (· ++ _) (PriorityQueue.ready_pushBack rfl)
      · rw [live, index] at inflight
        exact inflight
    · rw [if_neg mine] at first
      obtain ⟨q', there, ready, inflight⟩ := rest.queues name q first
      refine ⟨q', there, ?_, ?_⟩
      · rw [ready, next, committedTo, if_neg mine, List.nil_append]
      · rw [live, index] at inflight
        exact inflight
  · intro name missing
    refine rest.missing name ?_
    rw [queues name, missing]
    exact ite_self none
  · intro tag
    rw [rest.index tag, index]
    rfl
  · intro c
    rw [rest.deliveries c, deliveries, live]
    rfl
  · rw [rest.logged, wal, live]
    rfl

theorem Applied.ack {tag : UInt64} {ops : List PendingOp} {t : BrokerState}
    (rest : Applied env connId ops (s.acked env connId tag) t) :
    Applied env connId (.ack tag :: ops) s t := by
  obtain ⟨next, index, queues, deliveries, wal⟩ := @acked_spec env s connId tag
  have live := @outstandingTag_acked env s connId tag
  have settled : settledBy s.outstandingTag (.ack tag :: ops) =
      (if s.outstandingTag tag then [tag] else []) ++
        settledBy (s.acked env connId tag).outstandingTag ops := by
    rw [live]
    rfl
  constructor
  · intro name q found
    have first := queues name
    rw [found, Option.map_some] at first
    obtain ⟨q', there, ready, inflight⟩ := rest.queues name _ first
    refine ⟨q', there, ?_, fun i => ?_⟩
    · rw [ready, next]
      split <;> rfl
    · simp only [inflight i, index i, settled, List.mem_append]
      by_cases same : i = tag
      · subst same
        have once : i ∉ settledBy (s.acked env connId i).outstandingTag ops := by
          rw [mem_settledBy, live]
          simp
        by_cases here : s.outstandingTag i ∧ s.deliveryIndex.get? i = some name
        · rw [if_pos here, if_pos rfl, if_neg (by simp), if_pos ⟨by simp [here.1], here.2⟩]
          exact (FinMap.get?_erase ..).trans (if_pos rfl)
        · rw [if_neg here, if_neg (by simp [once])]
          refine (if_neg ?_).symm
          rintro ⟨first | later, at_name⟩
          · refine here ⟨?_, at_name⟩
            by_contra dead
            simp [dead] at first
          · exact once later
      · have other : i ∉ (if s.outstandingTag tag then [tag] else []) := by
          split
          · simpa using same
          · exact List.not_mem_nil
        have kept : (if s.outstandingTag tag ∧ s.deliveryIndex.get? tag = some name
            then q.release tag else q).inflight.get? i = q.inflight.get? i := by
          split
          · exact (FinMap.get?_erase ..).trans (if_neg same)
          · rfl
        rw [if_neg same, kept]
        simp only [other, false_or]
  · intro name missing
    refine rest.missing name ?_
    rw [queues name, missing]
    rfl
  · intro i
    have acks : (PendingOp.ack tag :: ops).filterMap PendingOp.ackTag =
        tag :: ops.filterMap PendingOp.ackTag := rfl
    rw [rest.index i, index i, acks]
    by_cases same : i = tag
    · simp [same]
    · simp [same]
  · intro c
    rw [rest.deliveries c, deliveries c, Option.map_map, settled]
    congr 1
    funext ds
    refine (List.filter_filter ..).trans ?_
    congr 1
    funext d
    by_cases same : c = connId
    · cases s.outstandingTag tag <;> simp [same, Bool.and_comm]
    · simp [same]
  · rw [rest.logged, wal, settled, List.map_append, logAll_append]

/-- A buffer is applied in its order. -/
theorem applied_forM (ops : List PendingOp) (s : BrokerState) :
    Applied env connId ops s ((ops.forM (applyTxOp connId) : Act env PUnit).final s) := by
  induction ops generalizing s with
  | nil =>
    constructor
    · intro name q found
      exact ⟨q, found, (List.append_nil _).symm, fun tag => by simp [settledBy]⟩
    · exact fun name missing => missing
    · exact fun tag => by simp
    · intro c
      simp [settledBy, map_filter_true]
    · rfl
  | cons op ops ih =>
    have step : ((op :: ops).forM (applyTxOp connId) : Act env PUnit).final s =
        (ops.forM (applyTxOp connId) : Act env PUnit).final
          ((applyTxOp connId op : Act env Unit).final s) := final_bind _ _ _
    rw [step]
    cases op with
    | publish exchange routingKey headers body => exact (ih _).publish
    | ack tag =>
      rw [applied_ack]
      exact (ih _).ack

theorem connState_forM (ops : List PendingOp) (s : BrokerState) :
    ((ops.forM (applyTxOp connId) : Act env PUnit).final s).connState = s.connState := by
  induction ops generalizing s with
  | nil => rfl
  | cons op ops ih =>
    have step : ((op :: ops).forM (applyTxOp connId) : Act env PUnit).final s =
        (ops.forM (applyTxOp connId) : Act env PUnit).final
          ((applyTxOp connId op : Act env Unit).final s) := final_bind _ _ _
    rw [step, ih]
    cases op with
    | publish => rfl
    | ack tag =>
      rw [applied_ack]
      unfold BrokerState.acked
      dsimp only
      split <;> rfl

def BrokerState.drained (s : BrokerState) (connId : UInt64) : BrokerState :=
  s.modifyConn connId fun cs => { cs with txBuffer := [] }

theorem drainTxBuffer_at {ops : List PendingOp} (tx : s.inTx connId = true)
    (buffer : s.txBuffer? connId = some ops) :
    (drainTxBuffer connId : Act env (Option (List PendingOp))).result s = some ops ∧
      (drainTxBuffer connId : Act env (Option (List PendingOp))).final s = s.drained connId := by
  obtain ⟨cs, found, rfl⟩ := Option.map_eq_some_iff.mp buffer
  have mode : cs.txMode = true := by
    unfold BrokerState.inTx at tx
    rwa [found] at tx
  unfold drainTxBuffer
  rw [result_bind, final_bind, result_look, final_look, found, Option.filter_some, if_pos mode]
  exact ⟨rfl, exec_books _⟩

theorem txBuffer?_drained {ops : List PendingOp} (buffer : s.txBuffer? connId = some ops) :
    (s.drained connId).txBuffer? connId = some [] := by
  obtain ⟨cs, found, -⟩ := Option.map_eq_some_iff.mp buffer
  unfold BrokerState.txBuffer? BrokerState.drained
  rw [get?_modifyConn, found]
  rfl

end

/-- Why the schema of its queue refuses a buffered publish. -/
def PendingOp.refusal (env : Env) (s : BrokerState) : PendingOp → Option (String × String)
  | .publish _ routingKey _ body =>
    (schemaRefusal env s body routingKey).map fun d => (routingKey, d)
  | .ack _ => none

theorem txSchemaFailure_eq {env : Env} {s : BrokerState} {ops : List PendingOp} :
    txSchemaFailure env s ops = ops.findSome? (PendingOp.refusal env s) := by
  unfold txSchemaFailure
  congr 1
  funext op
  cases op with
  | publish exchange routingKey headers body =>
    exact schemaFailure_eq.trans List.findSome?_singleton
  | ack tag => rfl

section
variable {env : Env} {s : BrokerState} {connId : UInt64} {ops : List PendingOp}
  (tx : s.inTx connId = true) (buffer : s.txBuffer? connId = some ops)
include tx buffer

theorem txCommit_drained {verdict : Option (String × String)}
    (failure : txSchemaFailure env s ops = verdict) :
    let rest : Act env (List Frame) := verdict.elim
      (ops.forM (applyTxOp connId) >>= fun _ => return [.txCommitOk]) fun failed =>
        return closeFrames preconditionFailed
          (env.schemaReplyText failed.1 (.validation failed.2)) classTx methodTxCommit
    served env s (.txCommit connId) = rest.final (s.drained connId) ∧
      answer env s (.txCommit connId) = rest.result (s.drained connId) := by
  obtain ⟨taken, drained⟩ := @drainTxBuffer_at env s connId ops tx buffer
  have same : txSchemaFailure env (s.drained connId) ops = verdict := failure
  change (txCommit connId : Act env (List Frame)).final s = _ ∧
    (txCommit connId : Act env (List Frame)).result s = _
  unfold txCommit
  rw [final_bind, result_bind, taken, drained]
  dsimp only
  rw [final_bind, result_bind, result_look, final_look, same]
  cases verdict <;> exact ⟨rfl, rfl⟩

end

/-- Either a schema refuses the whole transaction, and all that is left of it is an error; or all of
    the buffer is applied, in its order. The buffer is empty behind both. -/
theorem commit_all_or_nothing (env : Env) (s : BrokerState) (connId : UInt64)
    (ops : List PendingOp) (tx : s.inTx connId = true) (buffer : s.txBuffer? connId = some ops)
    (short : ∀ op ∈ ops, ∀ r ∈ op.refusal env s,
      FitsShortstr (env.schemaReplyText r.1 (.validation r.2))) :
    let after := served env s (.txCommit connId)
    after.txBuffer? connId = some [] ∧
    ((∃ op ∈ ops, op.refusal env s ≠ none) →
      after = s.drained connId ∧ after.queues = s.queues ∧
      after.deliveryIndex = s.deliveryIndex ∧ after.connDeliveries = s.connDeliveries ∧
      after.wal = s.wal ∧ ∃ op ∈ ops, ∃ queue d, op.refusal env s = some (queue, d) ∧
        (buildChannelClose preconditionFailed (env.schemaReplyText queue (.validation d)) classTx
          methodTxCommit).2 = true ∧
        answer env s (.txCommit connId) = [.channelClose preconditionFailed
          (env.schemaReplyText queue (.validation d)) classTx methodTxCommit]) ∧
    ((∀ op ∈ ops, op.refusal env s = none) →
      Applied env connId ops s after ∧ answer env s (.txCommit connId) = [.txCommitOk]) := by
  intro after
  cases failure : txSchemaFailure env s ops with
  | some failed =>
    obtain ⟨queue, d⟩ := failed
    obtain ⟨final, said⟩ : after = s.drained connId ∧ _ := txCommit_drained tx buffer failure
    rw [txSchemaFailure_eq] at failure
    obtain ⟨op, member, refused⟩ := List.exists_of_findSome?_eq_some failure
    have fits := short op member (queue, d) refused
    have told := said.trans (closeFrames_fits fits preconditionFailed classTx methodTxCommit)
    refine ⟨?_, fun _ => ⟨final, ?_, ?_, ?_, ?_, op, member, queue, d, refused, ?_, told⟩, ?_⟩
    · rw [final]
      exact txBuffer?_drained buffer
    · rw [final]
      rfl
    · rw [final]
      rfl
    · rw [final]
      rfl
    · rw [final]
      rfl
    · exact buildChannelClose_ok fits _ _ _
    · intro none
      rw [none op member] at refused
      cases refused
  | none =>
    obtain ⟨final, said⟩ := txCommit_drained tx buffer failure
    rw [Option.elim_none, final_bind, final_pure] at final
    rw [txSchemaFailure_eq, List.findSome?_eq_none_iff] at failure
    refine ⟨?_, ?_, fun _ => ⟨?_, said⟩⟩
    · unfold BrokerState.txBuffer?
      rw [show after = _ from final, connState_forM]
      exact txBuffer?_drained buffer
    · rintro ⟨op, member, refused⟩
      exact absurd (failure op member) refused
    · rw [show after = _ from final]
      have applied := @applied_forM env connId ops (s.drained connId)
      exact ⟨applied.queues, applied.missing, applied.index, applied.deliveries, applied.logged⟩

/-- What a client has in its buffer: a message for each of the two queues, the second one empty. -/
def strictOps : List PendingOp :=
  [PublishArgs.pending ⟨"", "plain", false, .default, [8]⟩,
    PublishArgs.pending ⟨"", "strict", false, .default, []⟩]

def strictBuffer : BrokerState := run (served strictEnv) strictQueue
  [.txSelect 1, .basicPublish 1 1 ⟨"", "plain", false, .default, [8]⟩ 0,
    .basicPublish 1 1 ⟨"", "strict", false, .default, []⟩ 0]

theorem commit_all_or_nothing_refused :
    strictBuffer.txBuffer? 1 = some strictOps ∧
    (served strictEnv strictBuffer (.txCommit 1)).txBuffer? 1 = some [] ∧
    (served strictEnv strictBuffer (.txCommit 1)).queues = strictBuffer.queues ∧
    answer strictEnv strictBuffer (.txCommit 1) =
      [.channelClose preconditionFailed "strict" classTx methodTxCommit] := by
  have buffer : strictBuffer.txBuffer? 1 = some strictOps := by decide +kernel
  have whole := commit_all_or_nothing strictEnv strictBuffer 1 strictOps (by decide +kernel) buffer
    (by decide +kernel)
  obtain ⟨-, queues, -⟩ := whole.2.1 (by decide +kernel)
  exact ⟨buffer, whole.1, queues, by decide +kernel⟩

end RocketmqBroker
