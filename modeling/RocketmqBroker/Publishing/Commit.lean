import RocketmqBroker.Publishing.Alike
import RocketmqBroker.Publishing.Isolation

/-!
A transaction of publishes against the same publishes without one. The commit pushes every
message into the queue that its routing key names, as it is; it does not route it, gives it no
expiration and no priority, logs nothing and evicts nothing. So it comes to the same as long
as a direct publish does none of this either.
-/
namespace RocketmqBroker
open Run Run.Program

def Message.SameButId (m m' : Message) : Prop := { m with id := m'.id } = m'

theorem Message.SameButId.refl (m : Message) : m.SameButId m := rfl

structure Sent where
  channel : UInt16
  args : PublishArgs
  now : Instant

section
variable (env : Env) (connId : UInt64)

def publishOn (s : BrokerState) (e : Sent) : BrokerState :=
  served env s (.basicPublish connId e.channel e.args e.now)

/-- A message with the permission goes to the queue that its routing key names, if there is
    one, and nowhere else, and the queue takes it as it comes. -/
def ArrivesPlainly (s : BrokerState) (e : Sent) : Prop :=
  checkPermission env s connId (·.write) e.args.exchange = true →
    e.args.receivers env s =
      (if s.queues.contains e.args.routingKey then [e.args.routingKey] else []) ∧
    ∀ q ∈ s.queues.get? e.args.routingKey, q.Plain e.args.ctx

instance (s : BrokerState) (e : Sent) : Decidable (ArrivesPlainly env connId s e) :=
  inferInstanceAs (Decidable (_ → _ ∧ ∀ q ∈ s.queues.get? e.args.routingKey, q.Plain e.args.ctx))

def pendingOps (s : BrokerState) (es : List Sent) : List PendingOp :=
  (es.filter fun e => checkPermission env s connId (·.write) e.args.exchange).map fun e =>
    e.args.pending

end

def BrokerState.credentials (s : BrokerState) (connId : UInt64) :
    AuthBackend × Option (String × String) :=
  (s.auth, (s.connState.get? connId).map fun cs => (cs.username, cs.vhost))

section
variable {env : Env} {s t u : BrokerState} {connId : UInt64} {args : PublishArgs} {now : Instant}

theorem checkPermission_congr (same : t.credentials connId = s.credentials connId)
    (extractor : Permission → String) (resource : String) :
    checkPermission env t connId extractor resource =
      checkPermission env s connId extractor resource := by
  obtain ⟨auth, user⟩ := Prod.mk.inj same
  have who (s : BrokerState) : checkPermission env s connId extractor resource =
      (s.auth.get? (((s.connState.get? connId).map fun cs =>
        (cs.username, cs.vhost)).getD ("", ""))).any fun perm =>
          matchesResource env (extractor perm) resource := by
    unfold checkPermission
    cases s.connState.get? connId with
    | none => cases found : s.auth.get? ("", "") <;> simp [found]
    | some cs => cases found : s.auth.get? (cs.username, cs.vhost) <;> simp [found]
  rw [who, who, auth, user]

theorem credentials_modifyConn {f : ConnectionState → ConnectionState}
    (still : ∀ cs, ((f cs).username, (f cs).vhost) = (cs.username, cs.vhost)) :
    (s.modifyConn connId f).credentials connId = s.credentials connId := by
  unfold BrokerState.credentials
  rw [get?_modifyConn, Option.map_map]
  exact congrArg (fun who => (s.auth, Option.map who _)) (funext still)

theorem credentials_numbered (channel : UInt16) :
    (s.numbered connId channel).credentials connId = s.credentials connId := by
  unfold BrokerState.numbered
  split
  · refine credentials_modifyConn ?_
    exact fun _ => rfl
  · rfl

theorem credentials_routePublish (tag : Option UInt64) :
    ((routePublish args now tag : Act env (List Frame)).final s).credentials connId =
      s.credentials connId := by
  refine (takes_routePublish now tag).keeps
    (P := fun t => t.credentials connId = s.credentials connId) (fun t e kind before => ?_) rfl
  cases e with
  | popOldest | enqueue => exact before
  | _ => cases kind

theorem credentials_publishOn (e : Sent) :
    (publishOn env connId s e).credentials connId = s.credentials connId := by
  cases permitted : checkPermission env s connId (·.write) e.args.exchange with
  | false => exact congrArg (·.credentials connId) (publish_denied permitted)
  | true =>
    change ((basicPublish connId e.channel e.args e.now : Act env (List Frame)).final
      s).credentials connId = _
    rw [(basicPublish_permitted e.now permitted).2]
    split
    · refine (credentials_modifyConn ?_).trans (credentials_numbered e.channel)
      exact fun _ => rfl
    · exact (credentials_routePublish _).trans (credentials_numbered e.channel)

theorem pendingOps_publishOn (e : Sent) (es : List Sent) :
    pendingOps env connId (publishOn env connId s e) es = pendingOps env connId s es := by
  unfold pendingOps
  congr 2
  funext e'
  exact checkPermission_congr (credentials_publishOn e) _ _

theorem pendingOps_cons (e : Sent) (es : List Sent) : pendingOps env connId s (e :: es) =
    (if checkPermission env s connId (·.write) e.args.exchange then [e.args.pending] else []) ++
      pendingOps env connId s es := by
  unfold pendingOps
  rw [List.filter_cons]
  split <;> rfl

theorem txBuffer?_publishOn {ops : List PendingOp} (tx : s.inTx connId = true)
    (buffer : s.txBuffer? connId = some ops) (e : Sent) :
    (publishOn env connId s e).txBuffer? connId = some (ops ++
      if checkPermission env s connId (·.write) e.args.exchange then [e.args.pending] else []) := by
  cases permitted : checkPermission env s connId (·.write) e.args.exchange with
  | false =>
    rw [if_neg Bool.false_ne_true, List.append_nil, ← buffer]
    exact congrArg (·.txBuffer? connId) (publish_denied permitted)
  | true =>
    change ((basicPublish connId e.channel e.args e.now : Act env (List Frame)).final
      s).txBuffer? connId = _
    rw [(basicPublish_permitted e.now permitted).2, if_pos tx, if_pos rfl, txBuffer?_buffered,
      txBuffer?_numbered, buffer]
    rfl

theorem buffering_run {ops : List PendingOp} (tx : s.inTx connId = true)
    (buffer : s.txBuffer? connId = some ops) (es : List Sent) :
    (run (publishOn env connId) s es).inTx connId = true ∧
    (run (publishOn env connId) s es).txBuffer? connId =
      some (ops ++ pendingOps env connId s es) ∧
    (run (publishOn env connId) s es).stored = s.stored := by
  induction es generalizing s ops with
  | nil =>
    refine ⟨tx, ?_, rfl⟩
    rw [run, List.foldl_nil, buffer]
    exact congrArg some (List.append_nil ops).symm
  | cons e es ih =>
    have inside : (publishOn env connId s e).inTx connId = true :=
      inTx_sendOn tx (e.channel, .basicPublish e.args e.now)
    have stored : (publishOn env connId s e).stored = s.stored := publish_inTx tx
    obtain ⟨tx', buffer', stored'⟩ := ih inside (txBuffer?_publishOn tx buffer e)
    refine ⟨tx', ?_, stored'.trans stored⟩
    rw [pendingOps_publishOn, List.append_assoc, ← pendingOps_cons] at buffer'
    exact buffer'

theorem get?_enqueueFull (queue exchange routingKey : String) (headers body : Bytes)
    (name : String) :
    (exec env s (.enqueueFull queue exchange routingKey headers body)).queues.get? name =
      if name = queue then (s.queues.get? name).map (·.pushBack
        (.full (.newRouted s.nextMsgId headers body exchange routingKey)))
      else s.queues.get? name := by
  rw [(exec_memory env s _).1]
  exact get?_modifyQueue s.allocMsgId.2 queue name _

theorem alike_push {tag : Option UInt64} (alike : t.Alike Message.SameButId u)
    (receivers : args.receivers env u =
      if u.queues.contains args.routingKey then [args.routingKey] else [])
    (plain : ∀ q ∈ u.queues.get? args.routingKey, q.Plain args.ctx) :
    (exec env t (.enqueueFull args.routingKey args.exchange args.routingKey
      args.properties.encode args.body)).Alike Message.SameButId
      ((routePublish args now tag : Act env (List Frame)).final u) := by
  constructor
  · intro name
    rw [get?_enqueueFull]
    cases found : u.queues.get? name with
    | none =>
      rw [routePublish_missing found, alike.missing found, Option.map_none, ite_self]
      exact .none
    | some q' =>
      obtain ⟨q, present, same⟩ := alike.found found
      obtain ⟨q'', there, accepts⟩ := @routePublish_accepts env u now args tag name q' found
      rw [there, present, Option.map_some]
      by_cases here : name = args.routingKey
      · subst here
        have known : u.queues.contains args.routingKey = true :=
          Option.isSome_iff_exists.mpr ⟨q', found⟩
        rw [receivers, if_pos known, List.count_cons_self, List.count_nil] at accepts
        rw [if_pos rfl]
        cases accepts with
        | next wal msgId rest =>
          cases rest
          rw [QueueState.accept_plain (plain q' found)]
          exact .some (same.pushed rfl rfl rfl)
      · have apart : (args.receivers env u).count name = 0 := by
          rw [receivers]
          split
          · exact List.count_cons_of_ne (Ne.symm here)
          · rfl
        rw [apart] at accepts
        rw [if_neg here]
        cases accepts
        exact .some same
  · have logged : (exec env t (.enqueueFull args.routingKey args.exchange args.routingKey
      args.properties.encode args.body)).wal = t.wal := rfl
    rw [logged, alike.wal, wal_routePublish]
    intro queue member q found
    rw [receivers] at member
    split at member
    · obtain rfl := List.mem_singleton.mp member
      exact (plain q found).unlogged
    · cases member

theorem stored_numbered (channel : UInt16) : (s.numbered connId channel).stored = s.stored := by
  unfold BrokerState.numbered
  split <;> rfl

theorem receivers_numbered (channel : UInt16) :
    args.receivers env (s.numbered connId channel) = args.receivers env s := by
  unfold BrokerState.numbered
  split <;> rfl

theorem publishOn_direct (out : u.inTx connId = false) {e : Sent}
    (permitted : checkPermission env u connId (·.write) e.args.exchange = true) :
    publishOn env connId u e =
      (routePublish e.args e.now (u.confirmTag? connId e.channel) : Act env (List Frame)).final
        (u.numbered connId e.channel) := by
  change (basicPublish connId e.channel e.args e.now : Act env (List Frame)).final u = _
  rw [(basicPublish_permitted e.now permitted).2, if_neg (Bool.eq_false_iff.mp out)]

theorem inTx_direct (out : u.inTx connId = false) (e : Sent) :
    (publishOn env connId u e).inTx connId = false := by
  cases permitted : checkPermission env u connId (·.write) e.args.exchange with
  | false => exact (congrArg (·.inTx connId) (publish_denied permitted)).trans out
  | true =>
    rw [publishOn_direct out permitted, BrokerState.inTx, connState_routePublish]
    exact (numbered_inTx connId).trans out

/-- The pushes of a commit, one after the other, against direct publishes. -/
theorem alike_run (out : u.inTx connId = false) (alike : t.Alike Message.SameButId u)
    {es : List Sent} (plain : Along (publishOn env connId) (ArrivesPlainly env connId) u es) :
    (((pendingOps env connId u es).forM (applyTxOp connId) : Act env PUnit).final t).Alike
      Message.SameButId (run (publishOn env connId) u es) := by
  induction es generalizing t u with
  | nil => exact alike
  | cons e es ih =>
    obtain ⟨here, rest⟩ := plain
    rw [pendingOps_cons]
    cases permitted : checkPermission env u connId (·.write) e.args.exchange with
    | false =>
      have same : publishOn env connId u e = u := publish_denied permitted
      rw [same] at rest
      rw [run, List.foldl_cons, same]
      exact ih out alike rest
    | true =>
      obtain ⟨receivers, arrives⟩ := here permitted
      have stored : (u.numbered connId e.channel).stored = u.stored := stored_numbered e.channel
      obtain ⟨queues, wal⟩ := Prod.mk.inj stored
      have numbered : t.Alike Message.SameButId (u.numbered connId e.channel) :=
        ⟨fun name => by rw [queues]; exact alike.queues name, alike.wal.trans wal.symm⟩
      have receivers' : e.args.receivers env (u.numbered connId e.channel) = _ :=
        (receivers_numbered e.channel).trans receivers
      rw [← queues] at receivers' arrives
      have pushed := @alike_push env t _ e.args e.now (u.confirmTag? connId e.channel) numbered
        receivers' arrives
      rw [← publishOn_direct out permitted] at pushed
      have later := ih (inTx_direct out e) pushed rest
      rw [pendingOps_publishOn] at later
      exact later

def BrokerState.schemaOf (s : BrokerState) (name : String) : Option CompiledSchema :=
  (s.queues.get? name).bind (·.schema)

theorem schemaFailure_congr (same : ∀ name, t.schemaOf name = s.schemaOf name)
    (targets : List String) (body : Bytes) :
    schemaFailure env t targets body = schemaFailure env s targets body := by
  have per (s : BrokerState) (queue : String) : (do
      let q ← s.queues.get? queue
      let schema ← q.schema
      let description ← env.validateMessage schema body
      return (queue, description) : Option (String × String)) = (do
      let schema ← s.schemaOf queue
      let description ← env.validateMessage schema body
      return (queue, description)) := by
    unfold BrokerState.schemaOf
    cases s.queues.get? queue <;> rfl
  unfold schemaFailure
  congr 1
  funext queue
  rw [per, per, same]

theorem schemaOf_direct (out : u.inTx connId = false) (e : Sent) (name : String) :
    (publishOn env connId u e).schemaOf name = u.schemaOf name := by
  cases permitted : checkPermission env u connId (·.write) e.args.exchange with
  | false => exact congrArg (·.schemaOf name) (publish_denied permitted)
  | true =>
    have stored : (u.numbered connId e.channel).stored = u.stored := stored_numbered e.channel
    have queues := (Prod.mk.inj stored).1
    rw [publishOn_direct out permitted, BrokerState.schemaOf, BrokerState.schemaOf, ← queues]
    cases found : (u.numbered connId e.channel).queues.get? name with
    | none => rw [routePublish_missing found]
    | some q =>
      obtain ⟨q', there, accepts⟩ := @routePublish_accepts env (u.numbered connId e.channel) e.now
        e.args (u.confirmTag? connId e.channel) name q found
      rw [there]
      exact accepts.setup.schema

theorem schemaFailure_receiver {queue : String} (member : queue ∈ args.receivers env s) :
    schemaFailure env s [queue] args.body = none := by
  unfold PublishArgs.receivers at member
  split at member
  · cases member
  · split at member
    · cases member
    · rename_i ex _ accepted
      have each := List.findSome?_eq_none_iff.mp
        (Option.not_isSome_iff_eq_none.mp accepted) queue (List.mem_filter.mp member).1
      exact List.findSome?_eq_none_iff.mpr fun other single => by
        obtain rfl := List.mem_singleton.mp single
        exact each

theorem txSchemaFailure_pending (ops : List PendingOp) :
    txSchemaFailure env s ([args.pending] ++ ops) =
      (schemaFailure env s [args.routingKey] args.body).or (txSchemaFailure env s ops) := by
  unfold txSchemaFailure
  rw [List.findSome?_append]
  congr 1
  exact List.findSome?_singleton

theorem txSchemaFailure_run (out : u.inTx connId = false)
    (same : ∀ name, s.schemaOf name = u.schemaOf name) {es : List Sent}
    (plain : Along (publishOn env connId) (ArrivesPlainly env connId) u es) :
    txSchemaFailure env s (pendingOps env connId u es) = none := by
  induction es generalizing u with
  | nil => rfl
  | cons e es ih =>
    obtain ⟨here, rest⟩ := plain
    have later := ih (inTx_direct out e)
      (fun name => (same name).trans (schemaOf_direct out e name).symm) rest
    rw [pendingOps_publishOn] at later
    rw [pendingOps_cons]
    cases permitted : checkPermission env u connId (·.write) e.args.exchange with
    | false => exact later
    | true =>
      obtain ⟨receivers, _⟩ := here permitted
      have first : schemaFailure env s [e.args.routingKey] e.args.body = none := by
        cases known : u.queues.contains e.args.routingKey with
        | true =>
          rw [schemaFailure_congr same]
          refine schemaFailure_receiver ?_
          rw [receivers, if_pos known]
          exact List.mem_singleton_self _
        | false =>
          have missing : u.queues.get? e.args.routingKey = none :=
            Option.not_isSome_iff_eq_none.mp (Bool.eq_false_iff.mp known)
          rw [schemaFailure_congr same]
          exact List.findSome?_eq_none_iff.mpr fun other single => by
            obtain rfl := List.mem_singleton.mp single
            rw [missing]
            rfl
      rw [if_pos rfl, txSchemaFailure_pending, first]
      exact later

theorem txCommit_accepted {ops : List PendingOp} (tx : s.inTx connId = true)
    (buffer : s.txBuffer? connId = some ops)
    (accepted : ∀ t, t.queues = s.queues → txSchemaFailure env t ops = none) :
    ∃ t, t.stored = s.stored ∧ served env s (.txCommit connId) =
      (ops.forM (applyTxOp connId) : Act env PUnit).final t := by
  have drained : (drainTxBuffer connId : Act env (Option (List PendingOp))).result s =
      some ops := by
    rw [result_drainTxBuffer]
    unfold BrokerState.inTx at tx
    unfold BrokerState.txBuffer? at buffer
    obtain ⟨cs, found, rfl⟩ := Option.map_eq_some_iff.mp buffer
    rw [found, Option.any_some] at tx
    rw [found, Option.filter_some, if_pos tx, Option.map_some]
  refine ⟨(drainTxBuffer connId : Act env (Option (List PendingOp))).final s,
    stored_drainTxBuffer s, ?_⟩
  change (txCommit connId : Act env (List Frame)).final s = _
  unfold txCommit
  rw [final_bind, drained]
  dsimp only
  rw [final_bind, result_look, final_look, accepted _ (Prod.mk.inj (stored_drainTxBuffer s)).1]
  exact final_bind _ _ _

/-- A transaction of publishes leaves the queues and the log like the same publishes without
    a transaction, as long as all of these arrive plainly. -/
theorem commit_like_direct (env : Env) (s : BrokerState) (connId : UInt64)
    (tx : s.inTx connId = true) (empty : s.txBuffer? connId = some []) (es : List Sent)
    (plain : Along (publishOn env connId) (ArrivesPlainly env connId) (s.leaveTx connId) es) :
    (served env (run (publishOn env connId) s es) (.txCommit connId)).Alike Message.SameButId
      (run (publishOn env connId) (s.leaveTx connId) es) := by
  have ops : pendingOps env connId (s.leaveTx connId) es = pendingOps env connId s es := by
    unfold pendingOps
    congr 2
    funext e
    exact checkPermission_leaveTx _ _
  obtain ⟨tx', buffer, stored⟩ := @buffering_run env s connId [] tx empty es
  have accepted : ∀ t, t.queues = (run (publishOn env connId) s es).queues →
      txSchemaFailure env t ([] ++ pendingOps env connId s es) = none := by
    intro t same
    rw [List.nil_append, ← ops]
    refine txSchemaFailure_run inTx_leaveTx (fun name => ?_) plain
    unfold BrokerState.schemaOf
    rw [same, (Prod.mk.inj stored).1]
    rfl
  obtain ⟨t, kept, committed⟩ := txCommit_accepted tx' buffer accepted
  rw [committed, List.nil_append, ← ops]
  have start : t.Alike Message.SameButId (s.leaveTx connId) := by
    obtain ⟨queues, wal⟩ := Prod.mk.inj (kept.trans stored)
    refine ⟨fun name => ?_, wal⟩
    rw [queues]
    exact (BrokerState.Alike.refl Message.SameButId.refl s).queues name
  exact alike_run inTx_leaveTx start plain

end

/-- A message of that client, for the queue named by its routing key or for others. -/
def sentTo (exchange routingKey : String) (body : Bytes) : Sent :=
  ⟨1, ⟨exchange, routingKey, false, .default, body⟩, 0⟩

theorem commit_like_direct_sent :
    (served (plainEnv 64 1) (run (publishOn (plainEnv 64 1) 1) txBegun
      [sentTo "" "q" [8], sentTo "" "q" [9]]) (.txCommit 1)).Alike Message.SameButId
      (run (publishOn (plainEnv 64 1) 1) (txBegun.leaveTx 1)
        [sentTo "" "q" [8], sentTo "" "q" [9]]) := by
  refine commit_like_direct (plainEnv 64 1) txBegun 1 (by decide +kernel) (by decide +kernel) _ ?_
  decide +kernel

/-- The queue q is bound to an exchange that sends it everything. -/
def txOnFanout : BrokerState := reached (plainEnv 64 1) guestOnly none
  (session "q" ++ [.queueBind "q" "amq.fanout" "" false, .txSelect 1])

/-- The queue is not reached by the commit. -/
theorem commit_not_routed : txOnFanout.inTx 1 = true ∧ txOnFanout.txBuffer? 1 = some [] ∧
    ¬ (served (plainEnv 64 1) (run (publishOn (plainEnv 64 1) 1) txOnFanout
      [sentTo "amq.fanout" "" [8]]) (.txCommit 1)).Alike Message.SameButId
      (run (publishOn (plainEnv 64 1) 1) (txOnFanout.leaveTx 1) [sentTo "amq.fanout" "" [8]]) := by
  refine ⟨by decide +kernel, by decide +kernel, ?_⟩
  intro alike
  have direct : ((run (publishOn (plainEnv 64 1) 1) (txOnFanout.leaveTx 1)
      [sentTo "amq.fanout" "" [8]]).queues.get? "q").map (·.messages.len) = some 1 := by
    decide +kernel
  have committed : ((served (plainEnv 64 1) (run (publishOn (plainEnv 64 1) 1) txOnFanout
      [sentTo "amq.fanout" "" [8]]) (.txCommit 1)).queues.get? "q").map (·.messages.len) =
      some 0 := by decide +kernel
  obtain ⟨q', found, one⟩ := Option.map_eq_some_iff.mp direct
  obtain ⟨q, present, same⟩ := alike.found found
  rw [present, Option.map_some] at committed
  have none := Option.some.inj committed
  rw [← same.len, one] at none
  exact absurd none (by decide)

end RocketmqBroker
