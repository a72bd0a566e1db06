import RocketmqBroker.Routing.Mandatory

/-!
Basic.Publish in its parts: the permission, the confirm tag, the buffer of a transaction, and
the way through the exchange into the queues for what is not buffered.
-/
namespace RocketmqBroker
open Run.Program

def BrokerState.confirmTag? (s : BrokerState) (connId : UInt64) (channel : UInt16) :
    Option UInt64 :=
  (s.channel? connId channel).bind fun ch =>
    if ch.confirmMode then some ch.nextDeliveryTag else none

def BrokerState.inTx (s : BrokerState) (connId : UInt64) : Bool :=
  (s.connState.get? connId).any (·.txMode)

def BrokerState.numbered (s : BrokerState) (connId : UInt64) (channel : UInt16) : BrokerState :=
  if (s.confirmTag? connId channel).isSome then
    s.modifyChannel connId channel fun ch => { ch with nextDeliveryTag := ch.nextDeliveryTag + 1 }
  else s

theorem BrokerState.numbered_connState (s : BrokerState) (connId : UInt64) (channel : UInt16) :
    ∃ conns, s.numbered connId channel = { s with connState := conns } := by
  unfold BrokerState.numbered
  split
  · exact ⟨_, rfl⟩
  · exact ⟨s.connState, rfl⟩

def PublishArgs.pending (args : PublishArgs) : PendingOp :=
  .publish args.exchange args.routingKey args.properties.encode args.body

def BrokerState.buffered (s : BrokerState) (connId : UInt64) (op : PendingOp) : BrokerState :=
  s.modifyConn connId fun cs => { cs with txBuffer := cs.txBuffer ++ [op] }

def Effect.enqueues : Effect → Bool
  | .popOldest _ => true
  | .enqueue _ _ _ => true
  | _ => false

section
variable {env : Env}

def routePublish (args : PublishArgs) (now : Instant) (tag : Option UInt64) :
    Act env (List Frame) := do
  match ← look fun s => s.exchanges.get? args.exchange with
  | none => return confirmAck tag
  | some ex =>
    let targets := args.targets env ex
    if targets.isEmpty then return handleNoRoute args tag
    else
      match ← look fun s => schemaFailure env s targets args.body with
      | some (queue, description) =>
        let text := env.schemaReplyText queue (.validation description)
        let close ← sendChannelError preconditionFailed text classBasic methodBasicPublish
        return if close.isEmpty then [] else close ++ tag.toList.map .basicNack
      | none =>
        targets.forM fun queue => enqueueSingle queue args.ctx now
        return confirmAck tag

/-- The nack of a refused publish comes behind the error, if that one can be sent. -/
theorem nack_behind_close (code classId methodId : Nat) (text : String) (tag : Option UInt64) :
    (if (closeFrames code text classId methodId).isEmpty then []
      else closeFrames code text classId methodId ++ tag.toList.map .basicNack) =
      if FitsShortstr text then
        .channelClose code text classId methodId :: tag.toList.map .basicNack else [] := by
  unfold closeFrames
  split <;> rfl

def PublishArgs.refusal? (env : Env) (s : BrokerState) (args : PublishArgs) : Option String :=
  (s.exchanges.get? args.exchange).bind fun ex =>
    (schemaFailure env s (args.targets env ex) args.body).map fun failure =>
      env.schemaReplyText failure.1 (.validation failure.2)

/-- The answer can be sent: `build_channel_close` does not panic. -/
def PublishArgs.Answerable (env : Env) (s : BrokerState) (args : PublishArgs) : Prop :=
  ∀ text ∈ args.refusal? env s, FitsShortstr text

instance (s : BrokerState) (args : PublishArgs) : Decidable (args.Answerable env s) :=
  inferInstanceAs (Decidable (∀ text ∈ args.refusal? env s, FitsShortstr text))

theorem PublishArgs.answerable_iff {s : BrokerState} {args : PublishArgs} {ex : Exchange}
    (found : s.exchanges.get? args.exchange = some ex) : args.Answerable env s ↔
      ∀ failure ∈ schemaFailure env s (args.targets env ex) args.body,
        FitsShortstr (env.schemaReplyText failure.1 (.validation failure.2)) := by
  unfold PublishArgs.Answerable PublishArgs.refusal?
  rw [found, Option.bind_some]
  exact Option.forall_mem_map

theorem basicPublish_eq (connId : UInt64) (channel : UInt16) (args : PublishArgs)
    (now : Instant) : (basicPublish connId channel args now : Act env (List Frame)) = (do
      if ← denied connId (·.write) args.exchange then denyAccess classBasic methodBasicPublish
      else
        let tag ← allocConfirmTag connId channel
        if ← bufferTxPublish connId args then return []
        else routePublish args now tag) := rfl

variable {s : BrokerState} {connId : UInt64} {channel : UInt16} {args : PublishArgs}

theorem allocConfirmTag_at : (allocConfirmTag connId channel : Act env (Option UInt64)).result s =
      s.confirmTag? connId channel ∧
    (allocConfirmTag connId channel : Act env (Option UInt64)).final s =
      s.numbered connId channel := by
  unfold allocConfirmTag BrokerState.numbered BrokerState.confirmTag?
  rw [result_bind, final_bind, result_look, final_look]
  cases s.channel? connId channel with
  | none => exact ⟨rfl, rfl⟩
  | some ch =>
    cases confirms : ch.confirmMode with
    | false =>
      simp only [confirms, Option.bind_some, Bool.not_false, if_true]
      exact ⟨rfl, rfl⟩
    | true =>
      simp only [confirms, Option.bind_some, Bool.not_true, if_true]
      exact ⟨rfl, exec_books _⟩

theorem bufferTxPublish_at : (bufferTxPublish connId args : Act env Bool).result s =
      s.inTx connId ∧
    (bufferTxPublish connId args : Act env Bool).final s =
      if s.inTx connId then s.buffered connId args.pending else s := by
  unfold bufferTxPublish
  rw [result_bind, final_bind]
  change (if s.inTx connId then _ else _ : Act env Bool).result s = _ ∧
    (if s.inTx connId then _ else _ : Act env Bool).final s = _
  cases tx : s.inTx connId with
  | false => exact ⟨tx, rfl⟩
  | true => exact ⟨tx, exec_books _⟩

theorem numbered_inTx (c : UInt64) : (s.numbered connId channel).inTx c = s.inTx c := by
  unfold BrokerState.numbered
  split
  · change ((s.connState.modify connId _).get? c).any (·.txMode) = (s.connState.get? c).any _
    rw [FinMap.get?_modify]
    split
    · rename_i same
      rw [same, Option.any_map]
    · rfl
  · rfl

theorem basicPublish_denied (now : Instant)
    (refused : checkPermission env s connId (·.write) args.exchange = false) :
    (basicPublish connId channel args now : Act env (List Frame)) s =
      ([.channelClose accessRefused "ACCESS_REFUSED - permission denied" classBasic
        methodBasicPublish], []) := by
  rw [basicPublish_eq]
  change (if !checkPermission env s connId (·.write) args.exchange then _ else _ :
    Act env (List Frame)) s = _
  rw [refused]
  rfl

theorem basicPublish_permitted (now : Instant)
    (permitted : checkPermission env s connId (·.write) args.exchange = true) :
    (basicPublish connId channel args now : Act env (List Frame)).result s =
      (if s.inTx connId then pure []
        else routePublish args now (s.confirmTag? connId channel) : Act env (List Frame)).result
        (s.numbered connId channel) ∧
    (basicPublish connId channel args now : Act env (List Frame)).final s =
      if s.inTx connId then (s.numbered connId channel).buffered connId args.pending
      else (routePublish args now (s.confirmTag? connId channel) : Act env (List Frame)).final
        (s.numbered connId channel) := by
  rw [basicPublish_eq, result_bind, final_bind]
  change (if !checkPermission env s connId (·.write) args.exchange then _ else
      allocConfirmTag connId channel >>= _ : Act env (List Frame)).result s = _ ∧
    (if !checkPermission env s connId (·.write) args.exchange then _ else
      allocConfirmTag connId channel >>= _ : Act env (List Frame)).final s = _
  rw [permitted]
  simp only [Bool.not_true, Bool.false_eq_true, if_false]
  rw [result_bind, final_bind, allocConfirmTag_at.1, allocConfirmTag_at.2, result_bind, final_bind,
    bufferTxPublish_at.1, bufferTxPublish_at.2, numbered_inTx]
  cases s.inTx connId with
  | false => exact ⟨rfl, rfl⟩
  | true => exact ⟨rfl, rfl⟩

theorem takes_routePublish (now : Instant) (tag : Option UInt64) :
    Takes (fun e => e.enqueues = true) (routePublish args now tag : Act env (List Frame)) := by
  refine (takes_read _).bind fun found => ?_
  split
  · exact takes_pure _
  dsimp only
  split
  · exact takes_pure _
  refine (takes_read _).bind fun failure => ?_
  split
  · exact Takes.bind (takes_pure _) fun _ => takes_pure _
  · refine Takes.bind (Takes.forM _ fun queue => ?_) fun _ => takes_pure _
    exact takes_enqueueSingle rfl rfl

theorem connState_routePublish (now : Instant) (tag : Option UInt64) :
    ((routePublish args now tag : Act env (List Frame)).final s).connState = s.connState := by
  refine (takes_routePublish now tag).keeps (P := fun t => t.connState = s.connState)
    (fun t e kind before => ?_) rfl
  cases e with
  | popOldest | enqueue => exact before
  | _ => cases kind

end
end RocketmqBroker
