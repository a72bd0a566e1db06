import RocketmqBroker.Delivery.Settling
import RocketmqBroker.Publishing.ConfirmTags

/-!
What a transaction keeps back until it is committed. The buffer and the mode belong to the
connection and not to the channel that asked for them, and the operations that settle a
delivery do not look at them. So nothing happens before the commit as long as the channel
publishes only, or settles what is not in flight; and another channel of the connection is
left alone as long as it does not publish.
-/
namespace RocketmqBroker
open Run Run.Program

inductive ClientOp where
  | basicPublish (args : PublishArgs) (now : Instant)
  | basicAck (tag : UInt64)
  | basicNack (tag : UInt64) (requeue : Bool)
  | basicReject (tag : UInt64) (requeue : Bool)

def ClientOp.op (connId : UInt64) (channel : UInt16) : ClientOp → Op
  | .basicPublish args now => .basicPublish connId channel args now
  | .basicAck tag => .basicAck connId channel tag
  | .basicNack tag requeue => .basicNack connId channel tag requeue
  | .basicReject tag requeue => .basicReject connId channel tag requeue

def ClientOp.tag? : ClientOp → Option UInt64
  | .basicPublish .. => none
  | .basicAck tag => some tag
  | .basicNack tag _ => some tag
  | .basicReject tag _ => some tag

/-- The queues, with the messages in flight, and the log. -/
def BrokerState.stored (s : BrokerState) : FinMap String QueueState × SegmentCoordinator :=
  (s.queues, s.wal)

/-- The same state with the connection outside of its transaction. -/
def BrokerState.leaveTx (connId : UInt64) (s : BrokerState) : BrokerState :=
  s.modifyConn connId fun cs => { cs with txMode := false }

section
variable (env : Env) (connId : UInt64) (channel : UInt16)

def sendOn (s : BrokerState) (e : UInt16 × ClientOp) : BrokerState :=
  served env s (e.2.op connId e.1)

/-- With the transaction on this channel, its own operations change nothing that is stored, and
    those of other channels do what they would do without a transaction. -/
def Isolated (s : BrokerState) (e : UInt16 × ClientOp) : Prop :=
  if e.1 = channel then (sendOn env connId s e).stored = s.stored
  else sendOn env connId (s.leaveTx connId) e = (sendOn env connId s e).leaveTx connId ∧
    answer env (s.leaveTx connId) (e.2.op connId e.1) = answer env s (e.2.op connId e.1)

/-- The channel of the transaction settles nothing that is in flight, and other channels of
    the connection publish nothing they have the permission for. -/
def KeepsApart (s : BrokerState) (e : UInt16 × ClientOp) : Prop :=
  if e.1 = channel then ∀ tag ∈ e.2.tag?, s.view.known tag = none
  else match e.2 with
    | .basicPublish args _ => checkPermission env s connId (·.write) args.exchange = false
    | _ => True

end

section
variable {env : Env} {s : BrokerState} {connId : UInt64} {channel : UInt16}

theorem leaveTx_modifyConn {f : ConnectionState → ConnectionState}
    (apart : ∀ cs, f { cs with txMode := false } = { f cs with txMode := false }) :
    (s.leaveTx connId).modifyConn connId f = (s.modifyConn connId f).leaveTx connId := by
  unfold BrokerState.leaveTx BrokerState.modifyConn
  simp only [FinMap.modify_modify]
  congr 2
  funext cs
  exact apart cs

theorem blind_decrementUnacked :
    Blind (BrokerState.leaveTx connId) (decrementUnacked connId channel : Act env Unit) := by
  refine blind_perform fun s => ?_
  rw [exec_books, exec_books]
  exact leaveTx_modifyConn fun _ => rfl

theorem blind_takeDelivery (tag : UInt64) :
    Blind (BrokerState.leaveTx connId) (takeDelivery tag : Act env (Option String)) := by
  refine Blind.bind (blind_read fun _ => ?_) fun queue => ?_
  · rfl
  refine Blind.bind (blind_perform fun _ => ?_) fun _ => blind_read fun _ => ?_
  · rfl
  · rfl

theorem blind_untrackDelivery (tag : UInt64) :
    Blind (BrokerState.leaveTx connId) (untrackDelivery connId tag : Act env Unit) := by
  refine blind_perform fun _ => ?_
  rfl

theorem blind_release {e : Effect} {queue : String} {tag : UInt64}
    (releases : e.releases = some (queue, tag)) :
    Blind (BrokerState.leaveTx connId) (perform e : Act env Unit) := by
  refine blind_perform fun _ => ?_
  cases e with
  | settle | discard | requeue => rfl
  | _ => cases releases

theorem blind_settling {r : ClientOp} (settles : r.tag?.isSome = true) :
    Blind (BrokerState.leaveTx connId) (handle (r.op connId channel) : Act env (List Frame)) := by
  have negative (tag : UInt64) (requeue : Bool) : Blind (BrokerState.leaveTx connId)
      (resolveNegativeDelivery connId tag requeue : Act env Unit) := by
    refine (blind_takeDelivery tag).bind fun found => ?_
    split
    · exact blind_pure _
    · refine (blind_untrackDelivery tag).bind fun _ => ?_
      split
      · exact blind_release rfl
      · exact blind_release rfl
  cases r with
  | basicPublish => cases settles
  | basicAck tag =>
    refine blind_decrementUnacked.bind fun _ => (blind_takeDelivery tag).bind fun found => ?_
    split
    · exact blind_pure _
    · exact (blind_release rfl).bind fun _ => (blind_untrackDelivery tag).bind fun _ => blind_pure _
  | basicNack tag requeue | basicReject tag requeue =>
    exact blind_decrementUnacked.bind fun _ => (negative tag requeue).bind fun _ => blind_pure _

theorem stored_books (b : Bookkeeping) : (exec env s (.books b)).stored = s.stored := by
  rw [exec_books]
  exact Prod.ext (b.queues s) (b.wal s)

theorem stored_decrementUnacked :
    ((decrementUnacked connId channel : Act env Unit).final s).stored = s.stored := stored_books _

theorem stored_takeDelivery (tag : UInt64) :
    ((takeDelivery tag : Act env (Option String)).final s).stored = s.stored := stored_books _

theorem stored_settling {r : ClientOp} {tag : UInt64} (settles : r.tag? = some tag)
    (unknown : s.view.known tag = none) :
    (sendOn env connId s (channel, r)).stored = s.stored := by
  have still :
      ((decrementUnacked connId channel : Act env Unit).final s).view.known tag = none := by
    rw [view_spend]
    exact unknown
  have negative (requeue : Bool) : ((resolveNegativeDelivery connId tag requeue :
      Act env Unit).final ((decrementUnacked connId channel : Act env Unit).final s)).stored =
      s.stored := by
    unfold resolveNegativeDelivery
    rw [final_bind, result_takeDelivery, still]
    exact (stored_takeDelivery tag).trans stored_decrementUnacked
  cases r with
  | basicPublish => cases settles
  | basicAck tag' =>
    obtain rfl := Option.some.inj settles
    change ((basicAck connId channel tag' : Act env (List Frame)).final s).stored = _
    unfold basicAck
    rw [final_bind, final_bind, result_takeDelivery, still]
    exact (stored_takeDelivery tag').trans stored_decrementUnacked
  | basicNack tag' requeue =>
    obtain rfl := Option.some.inj settles
    change ((basicNack connId channel tag' requeue : Act env (List Frame)).final s).stored = _
    unfold basicNack
    rw [final_bind, final_bind]
    exact negative requeue
  | basicReject tag' requeue =>
    obtain rfl := Option.some.inj settles
    change ((basicReject connId channel tag' requeue : Act env (List Frame)).final s).stored = _
    unfold basicReject
    rw [final_bind, final_bind]
    exact negative requeue

theorem queues_settling {r : ClientOp} {tag : UInt64} {queue : String}
    (settles : r.tag? = some tag) (known : s.view.known tag = some queue) :
    (sendOn env connId s (channel, r)).stored ≠ s.stored := by
  intro same
  have view : (sendOn env connId s (channel, r)).view =
      (s.view.spend connId channel).settle connId tag := by
    cases r with
    | basicPublish => cases settles
    | basicAck tag' =>
      obtain rfl := Option.some.inj settles
      exact view_basicAck connId channel tag'
    | basicNack tag' requeue | basicReject tag' requeue =>
      obtain rfl := Option.some.inj settles
      exact view_basicReject connId channel tag' requeue
  have gone : ((sendOn env connId s (channel, r)).view.queue queue).inflight tag = none := by
    have spent : (s.view.spend connId channel).known tag = some queue := known
    rw [view, DeliveryView.settle, spent]
    simp only [DeliveryView.untrack, DeliveryView.release, Function.update_self]
  have here : ((s.view.queue queue).inflight tag).isSome = true :=
    (Option.filter_eq_some_iff.mp known).2
  have equal : (sendOn env connId s (channel, r)).view.queue = s.view.queue := by
    funext name
    change (sendOn env connId s (channel, r)).queueView name = s.queueView name
    unfold BrokerState.queueView
    rw [(Prod.mk.inj same).1]
  rw [equal] at gone
  rw [gone] at here
  cases here

def BrokerState.txBuffer? (s : BrokerState) (connId : UInt64) : Option (List PendingOp) :=
  (s.connState.get? connId).map (·.txBuffer)

theorem get?_modifyConn (f : ConnectionState → ConnectionState) :
    (s.modifyConn connId f).connState.get? connId = (s.connState.get? connId).map f := by
  unfold BrokerState.modifyConn
  rw [FinMap.get?_modify, if_pos rfl]

theorem txBuffer?_numbered : (s.numbered connId channel).txBuffer? connId = s.txBuffer? connId := by
  unfold BrokerState.numbered
  split
  · unfold BrokerState.txBuffer? BrokerState.modifyChannel
    rw [get?_modifyConn, Option.map_map]
    rfl
  · rfl

theorem txBuffer?_leaveTx : (s.leaveTx connId).txBuffer? connId = s.txBuffer? connId := by
  unfold BrokerState.txBuffer? BrokerState.leaveTx
  rw [get?_modifyConn, Option.map_map]
  rfl

theorem txBuffer?_buffered (op : PendingOp) :
    (s.buffered connId op).txBuffer? connId = (s.txBuffer? connId).map (· ++ [op]) := by
  unfold BrokerState.txBuffer? BrokerState.buffered
  rw [get?_modifyConn, Option.map_map, Option.map_map]
  rfl

theorem inTx_leaveTx : (s.leaveTx connId).inTx connId = false := by
  unfold BrokerState.inTx BrokerState.leaveTx
  rw [get?_modifyConn, Option.any_map]
  cases s.connState.get? connId <;> rfl

theorem checkPermission_leaveTx (extractor : Permission → String) (resource : String) :
    checkPermission env (s.leaveTx connId) connId extractor resource =
      checkPermission env s connId extractor resource := by
  unfold checkPermission BrokerState.leaveTx
  rw [get?_modifyConn]
  cases s.connState.get? connId <;> rfl

theorem publish_denied {args : PublishArgs} {now : Instant}
    (refused : checkPermission env s connId (·.write) args.exchange = false) :
    sendOn env connId s (channel, .basicPublish args now) = s := by
  change (basicPublish connId channel args now : Act env (List Frame)).final s = s
  rw [final, steps, basicPublish_denied now refused]
  rfl

theorem publish_inTx {args : PublishArgs} {now : Instant} (tx : s.inTx connId = true) :
    (sendOn env connId s (channel, .basicPublish args now)).stored = s.stored := by
  cases permitted : checkPermission env s connId (·.write) args.exchange with
  | false => rw [publish_denied permitted]
  | true =>
    change ((basicPublish connId channel args now : Act env (List Frame)).final s).stored = _
    rw [(basicPublish_permitted now permitted).2, if_pos tx]
    change (s.numbered connId channel).stored = s.stored
    unfold BrokerState.numbered
    split
    · rfl
    · rfl

theorem inTx_modifyConn {f : ConnectionState → ConnectionState}
    (still : ∀ cs, (f cs).txMode = cs.txMode) :
    (s.modifyConn connId f).inTx connId = s.inTx connId := by
  unfold BrokerState.inTx
  rw [get?_modifyConn, Option.any_map]
  exact congrArg (Option.any · _) (funext still)

/-- Settling leaves the mode of the connection as it is. -/
theorem leaves_settling {r : ClientOp} (settles : r.tag?.isSome = true) :
    Leaves (fun s : BrokerState => s.inTx connId)
      (handle (r.op connId channel) : Act env (List Frame)) := by
  have counts : Leaves (fun s : BrokerState => s.inTx connId)
      (decrementUnacked connId channel : Act env Unit) := by
    refine leaves_perform fun s => ?_
    rw [exec_books]
    exact inTx_modifyConn fun _ => rfl
  have takes (tag : UInt64) : Leaves (fun s : BrokerState => s.inTx connId)
      (takeDelivery tag : Act env (Option String)) :=
    (leaves_read _).bind fun _ => Leaves.bind (leaves_perform fun _ => rfl) fun _ => leaves_read _
  have untracks (tag : UInt64) : Leaves (fun s : BrokerState => s.inTx connId)
      (untrackDelivery connId tag : Act env Unit) := leaves_perform fun _ => rfl
  have negative (tag : UInt64) (requeue : Bool) : Leaves (fun s : BrokerState => s.inTx connId)
      (resolveNegativeDelivery connId tag requeue : Act env Unit) := by
    refine (takes tag).bind fun found => ?_
    split
    · exact leaves_pure _
    · refine (untracks tag).bind fun _ => ?_
      split
      · exact leaves_perform fun _ => rfl
      · exact leaves_perform fun _ => rfl
  cases r with
  | basicPublish => cases settles
  | basicAck tag =>
    refine counts.bind fun _ => (takes tag).bind fun found => ?_
    split
    · exact leaves_pure _
    · exact Leaves.bind (leaves_perform fun _ => rfl) fun _ => (untracks tag).bind fun _ =>
        leaves_pure _
  | basicNack tag requeue | basicReject tag requeue =>
    exact counts.bind fun _ => (negative tag requeue).bind fun _ => leaves_pure _

theorem inTx_sendOn (tx : s.inTx connId = true) (e : UInt16 × ClientOp) :
    (sendOn env connId s e).inTx connId = true := by
  obtain ⟨channel, r⟩ := e
  cases settles : r.tag?.isSome with
  | true => exact (leaves_settling settles s).trans tx
  | false =>
    cases r with
    | basicPublish args now =>
      cases permitted : checkPermission env s connId (·.write) args.exchange with
      | false => rw [publish_denied permitted, tx]
      | true =>
        change ((basicPublish connId channel args now : Act env (List Frame)).final s).inTx _ = _
        rw [(basicPublish_permitted now permitted).2, if_pos tx]
        unfold BrokerState.buffered
        refine (inTx_modifyConn ?_).trans ((numbered_inTx connId).trans tx)
        exact fun _ => rfl
    | _ => cases settles

theorem publish_other {args : PublishArgs} {now : Instant} (tx : s.inTx connId = true)
    (permitted : checkPermission env s connId (·.write) args.exchange = true) :
    sendOn env connId (s.leaveTx connId) (channel, .basicPublish args now) ≠
      (sendOn env connId s (channel, .basicPublish args now)).leaveTx connId := by
  intro same
  have buffers := congrArg (fun t => BrokerState.txBuffer? t connId) same
  have outside : (sendOn env connId (s.leaveTx connId)
      (channel, .basicPublish args now)).txBuffer? connId = s.txBuffer? connId := by
    have permitted' := (checkPermission_leaveTx (·.write) args.exchange).trans permitted
    change ((basicPublish connId channel args now : Act env (List Frame)).final
      (s.leaveTx connId)).txBuffer? connId = _
    rw [(basicPublish_permitted now permitted').2, if_neg (Bool.eq_false_iff.mp inTx_leaveTx)]
    unfold BrokerState.txBuffer?
    rw [connState_routePublish]
    exact txBuffer?_numbered.trans txBuffer?_leaveTx
  have inside : (sendOn env connId s (channel, .basicPublish args now)).txBuffer? connId =
      (s.txBuffer? connId).map (· ++ [args.pending]) := by
    change ((basicPublish connId channel args now : Act env (List Frame)).final s).txBuffer? _ = _
    rw [(basicPublish_permitted now permitted).2, if_pos tx, txBuffer?_buffered, txBuffer?_numbered]
  simp only [outside, txBuffer?_leaveTx, inside] at buffers
  cases found : s.txBuffer? connId with
  | none =>
    unfold BrokerState.txBuffer? at found
    unfold BrokerState.inTx at tx
    rw [Option.map_eq_none_iff.mp found] at tx
    cases tx
  | some ops =>
    rw [found] at buffers
    exact List.cons_ne_nil _ _ (List.self_eq_append_right.mp (Option.some.inj buffers))

theorem isolated_iff (tx : s.inTx connId = true) (e : UInt16 × ClientOp) :
    Isolated env connId channel s e ↔ KeepsApart env connId channel s e := by
  obtain ⟨d, r⟩ := e
  unfold Isolated KeepsApart
  by_cases own : d = channel
  · rw [if_pos own, if_pos own]
    cases settles : r.tag? with
    | none =>
      cases r with
      | basicPublish args now =>
        refine iff_of_true (publish_inTx tx) ?_
        intro tag member
        exact absurd member (Option.not_mem_none tag)
      | _ => cases settles
    | some tag =>
      simp only [Option.mem_some_iff, forall_eq']
      cases known : s.view.known tag with
      | none => exact iff_of_true (stored_settling settles known) rfl
      | some queue =>
        exact iff_of_false (queues_settling settles known) (Option.some_ne_none queue)
  · rw [if_neg own, if_neg own]
    cases settles : r.tag?.isSome with
    | true =>
      have blind := @blind_settling env connId d r settles s
      cases r with
      | basicPublish => cases settles
      | _ => exact iff_of_true ⟨blind.2, blind.1⟩ trivial
    | false =>
      cases r with
      | basicPublish args now =>
        cases permitted : checkPermission env s connId (·.write) args.exchange with
        | true =>
          refine iff_of_false ?_ ?_
          · rintro ⟨same, _⟩
            exact publish_other tx permitted same
          · intro refused
            exact absurd (permitted.symm.trans refused) (by decide)
        | false =>
          have permitted' := (checkPermission_leaveTx (·.write) args.exchange).trans permitted
          refine iff_of_true ⟨?_, ?_⟩ permitted
          · rw [publish_denied permitted, publish_denied permitted']
          · change (basicPublish connId d args now : Act env (List Frame)).result _ =
              (basicPublish connId d args now : Act env (List Frame)).result s
            rw [result, result, basicPublish_denied now permitted,
              basicPublish_denied now permitted']
      | _ => cases settles

theorem stored_run {es : List (UInt16 × ClientOp)} (own : ∀ e ∈ es, e.1 = channel)
    (isolated : Along (sendOn env connId) (Isolated env connId channel) s es) :
    (run (sendOn env connId) s es).stored = s.stored := by
  induction es generalizing s with
  | nil => rfl
  | cons e es ih =>
    obtain ⟨first, rest⟩ := isolated
    rw [Isolated, if_pos (own e List.mem_cons_self)] at first
    exact (ih (fun e' member => own e' (List.mem_cons_of_mem _ member)) rest).trans first

theorem stored_drainTxBuffer :
    Leaves BrokerState.stored (drainTxBuffer connId : Act env (Option (List PendingOp))) := by
  refine (leaves_read _).bind fun found => ?_
  split
  · exact leaves_pure _
  · exact Leaves.bind (leaves_perform fun _ => stored_books _) fun _ => leaves_pure _

theorem stored_rollback : (served env s (.txRollback connId)).stored = s.stored := by
  have leaves : Leaves BrokerState.stored (txRollback connId : Act env (List Frame)) := by
    refine stored_drainTxBuffer.bind fun drained => ?_
    split
    · exact leaves_pure _
    · exact leaves_pure _
  exact leaves s

/-- In a transaction that one channel of the connection has begun, nothing happens before its
    end and nothing to other channels, exactly if all operations keep apart. Then a rollback
    leaves everything as it was when the transaction began. -/
theorem tx_isolated_iff (env : Env) (s : BrokerState) (connId : UInt64) (channel : UInt16)
    (tx : s.inTx connId = true) (es : List (UInt16 × ClientOp)) :
    (Along (sendOn env connId) (Isolated env connId channel) s es ↔
      Along (sendOn env connId) (KeepsApart env connId channel) s es) ∧
    (∀ t, (served env t (.txRollback connId)).stored = t.stored) ∧
    ((∀ e ∈ es, e.1 = channel) → Along (sendOn env connId) (KeepsApart env connId channel) s es →
      (served env (run (sendOn env connId) s es) (.txRollback connId)).stored = s.stored) := by
  have inside : Along (sendOn env connId) (fun t _ => t.inTx connId = true) s es :=
    along_invariant (fun t : BrokerState => t.inTx connId = true)
      (fun _ e tx => inTx_sendOn tx e) tx es
  have same : Along (sendOn env connId) (Isolated env connId channel) s es ↔
      Along (sendOn env connId) (KeepsApart env connId channel) s es :=
    along_congr inside fun _ e tx => isolated_iff tx e
  refine ⟨same, fun _ => stored_rollback, ?_⟩
  intro own apart
  exact stored_rollback.trans (stored_run own (same.mpr apart))

end

/-- Channel 1 has begun a transaction, with a message of the queue q in flight. -/
def txBegun : BrokerState := reached (plainEnv 64 1) guestOnly none
  (session "q" ++ [publishTo "q" false [7], .basicGet 1 "q" false, .txSelect 1])

/-- An acknowledgement in the transaction acts at once. -/
theorem ack_not_buffered : txBegun.inTx 1 = true ∧
    ¬ Along (sendOn (plainEnv 64 1) 1) (Isolated (plainEnv 64 1) 1 1) txBegun
      [(1, .basicAck 1)] := by
  have known : txBegun.view.known 1 = some "q" := by decide +kernel
  refine ⟨by decide +kernel, ?_⟩
  rintro ⟨isolated, _⟩
  exact queues_settling rfl known isolated

theorem tx_isolated_publishing :
    (served (plainEnv 64 1) (run (sendOn (plainEnv 64 1) 1) txBegun
      [(1, .basicPublish ⟨"", "q", false, .default, [8]⟩ 0)]) (.txRollback 1)).stored =
        txBegun.stored := by
  refine (tx_isolated_iff (plainEnv 64 1) txBegun 1 1 (by decide +kernel) _).2.2 ?_ ?_
  · decide
  · refine ⟨?_, trivial⟩
    intro tag member
    exact absurd member (Option.not_mem_none tag)

end RocketmqBroker
