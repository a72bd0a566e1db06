import RocketmqBroker.Broker.Dispatch
import RocketmqBroker.Consumers.Tags

/-!
Exclusive queues and the connections that do not own them. A declaration looks at the owner;
the other methods that name a queue do not, so whatever they refuse they refuse for reasons
of their own.
-/
namespace RocketmqBroker
open Run Run.Program

def Method.queue? (s : BrokerState) : Method → Option String
  | .queueDeclare args _ =>
    some (if args.name.isEmpty then "amq.gen-" ++ toString s.nextMsgId else args.name)
  | .queueDelete name _ _ _ | .queuePurge name _ => some name
  | .queueBind queue _ _ _ | .queueUnbind queue _ _ => some queue
  | .basicConsume args => some args.queue
  | .basicGet queue _ => some queue
  | _ => none

def Locked (s : BrokerState) (connId : UInt64) (name : String) : Prop :=
  ∃ q owner, s.queues.get? name = some q ∧ q.options.exclusive = true ∧
    q.ownerConnId = some owner ∧ owner ≠ connId ∧ s.connections.contains owner = true

def BrokerState.bindingsOf (s : BrokerState) (name exchange : String) : Option (List Binding) :=
  (s.exchanges.get? exchange).map fun ex => ex.bindings.filter (·.queueName == name)

/-- The answer is an error and nothing else, and the queue is as before: its messages, its
    consumers and its bindings. -/
structure Refused (env : Env) (s : BrokerState) (name : String) (op : Op) : Prop where
  closes : ∃ code text classId methodId,
    answer env s op = [.channelClose code text classId methodId]
  queue : (served env s op).queues.get? name = s.queues.get? name
  bindings : ∀ exchange, (served env s op).bindingsOf name exchange = s.bindingsOf name exchange

def LocksOut (env : Env) (s : BrokerState) : Input → Prop
  | .method connId channel m => ∀ name ∈ m.queue? s, Locked s connId name →
    Refused env s name (dispatchMethod connId channel m)
  | .event _ => True

def ConsumePanics (env : Env) (s : BrokerState) (connId : UInt64) (args : ConsumeArgs) : Prop :=
  checkPermission env s connId (·.read) args.queue = true ∧
    (args.exclusive && s.hasConsumers args.queue) = false ∧
    ∃ text ∈ (validateConsumerSchema args : Act env (Option String)).result s, ¬ FitsShortstr text

/-- The reasons that a method has to refuse a locked queue, most of which have nothing to do
    with the lock. -/
def Barred (env : Env) (s : BrokerState) (connId : UInt64) : Method → Prop
  | .queueDeclare args _ => args.passive = false
  | .queueDelete name ifUnused ifEmpty _ => ∃ q, s.queues.get? name = some q ∧
    (ifUnused = true ∧ q.consumerTags.keys ≠ [] ∨ ifEmpty = true ∧ q.messages.isEmpty = false)
  | .queueBind _ exchange _ _ | .queueUnbind _ exchange _ =>
    s.exchanges.contains exchange = false
  | .basicConsume args => (checkPermission env s connId (·.read) args.queue = false ∨
    args.exclusive = true ∧ (s.queues.get? args.queue).any (!·.consumerTags.keys.isEmpty) = true ∨
    ((validateConsumerSchema args : Act env (Option String)).result s).isSome = true) ∧
    ¬ ConsumePanics env s connId args
  | _ => False

def LocksOutBy (env : Env) (s : BrokerState) : Input → Prop
  | .method connId _ m => ∀ name ∈ m.queue? s, Locked s connId name → Barred env s connId m
  | .event _ => True

section
variable {env : Env} {s : BrokerState} {connId : UInt64} {channel : UInt16} {name : String}

def Closes (p : Act env (List Frame)) (s : BrokerState) : Prop :=
  (∃ code text classId methodId, p.result s = [.channelClose code text classId methodId]) ∧
    (p.final s).queues = s.queues ∧ (p.final s).exchanges = s.exchanges

theorem closes_error {text : String} (fits : FitsShortstr text) (code classId methodId : Nat) :
    Closes (sendChannelError code text classId methodId : Act env (List Frame)) s :=
  ⟨⟨code, text, classId, methodId, closeFrames_fits fits code classId methodId⟩, rfl, rfl⟩

theorem closes_declareActive {args : QueueDeclareArgs} (now : Instant)
    (locked : Locked s connId name) :
    Closes (declareActive connId name args now : Act env (List Frame)) s := by
  obtain ⟨q, owner, found, exclusive, owned, other, -⟩ := locked
  have refuses : (s.queues.get? name).any
      (fun q => q.options.exclusive && q.ownerConnId != some connId) = true := by
    simp [found, exclusive, owned, other]
  change Closes (if (s.queues.get? name).any
    (fun q => q.options.exclusive && q.ownerConnId != some connId) then _ else _ :
      Act env (List Frame)) s
  rw [if_pos refuses]
  exact closes_error (by decide) _ _ _

def NoClose (frames : List Frame) : Prop :=
  ∀ code text classId methodId, frames ≠ [.channelClose code text classId methodId]

theorem noClose_nil : NoClose [] := fun _ _ _ _ same => by cases same

theorem noClose_unless {noWait : Bool} {frame : Frame} (other : NoClose [frame]) :
    NoClose (if noWait then [] else [frame]) := by
  cases noWait with
  | true => exact noClose_nil
  | false => exact other

/-- Whether the program ends with an error that changes no queue is decided by a condition. -/
def Decides (barred : Prop) (p : Act env (List Frame)) (s : BrokerState) : Prop :=
  (barred → Closes p s) ∧ (¬ barred → NoClose (p.result s))

theorem decides_barred {barred : Prop} {p : Act env (List Frame)} (here : barred)
    (closes : Closes p s) : Decides barred p s := ⟨fun _ => closes, fun free => absurd here free⟩

theorem decides_free {barred : Prop} {p : Act env (List Frame)} (free : ¬ barred)
    (answers : NoClose (p.result s)) : Decides barred p s :=
  ⟨fun here => absurd here free, fun _ => answers⟩

/-- What comes first changes no queue and no exchange, so what comes behind it decides. -/
theorem decides_bind {α : Type} {barred : Prop} {p : Act env α} {f : α → Act env (List Frame)}
    (still : Leaves (fun s : BrokerState => (s.queues, s.exchanges)) p)
    (behind : Decides barred (f (p.result s)) (p.final s)) : Decides barred (p >>= f) s := by
  obtain ⟨queues, exchanges⟩ := Prod.mk.inj (still s)
  unfold Decides Closes at behind ⊢
  rw [queues, exchanges] at behind
  rw [result_bind, final_bind]
  exact behind

theorem decides_look {α : Type} {barred : Prop} {f : BrokerState → α} {g : α → Act env (List Frame)}
    (behind : Decides barred (g (f s)) s) : Decides barred (look f >>= g) s :=
  decides_bind (leaves_read f) behind

theorem decides_declareNamed (args : QueueDeclareArgs) (now : Instant)
    (locked : Locked s connId name) : Decides (args.passive = false)
      (queueDeclare.declareNamed connId args now name : Act env (List Frame)) s := by
  unfold queueDeclare.declareNamed
  cases active : args.passive with
  | false =>
    refine decides_barred rfl ?_
    change Closes (if !checkPermission env s connId (·.configure) name then _ else _ :
      Act env (List Frame)) s
    split
    · exact closes_error (by decide) _ _ _
    · exact closes_declareActive now locked
  | true =>
    obtain ⟨q, -, found, -⟩ := locked
    refine decides_free Bool.noConfusion ?_
    change NoClose ((if s.queues.contains name then sendDeclareOk name args.noWait else _ :
      Act env (List Frame)).result s)
    rw [FinMap.contains, found, if_pos Option.isSome_some]
    unfold sendDeclareOk
    cases args.noWait with
    | true => exact noClose_nil
    | false =>
      simp only [Bool.false_eq_true, if_false, result_look, found]
      simp [NoClose]

theorem decides_queueDeclare (args : QueueDeclareArgs) (now : Instant)
    (locked : Locked s connId
      (if args.name.isEmpty then "amq.gen-" ++ toString s.nextMsgId else args.name)) :
    Decides (args.passive = false) (queueDeclare connId args now : Act env (List Frame)) s := by
  unfold queueDeclare
  split
  · rename_i unnamed
    rw [if_pos unnamed] at locked
    have after : Locked (exec env s .alloc) connId ("amq.gen-" ++ toString s.nextMsgId) := locked
    refine decides_look (decides_bind (fun _ => rfl) ?_)
    rw [final_performed]
    exact decides_declareNamed args now after
  · rename_i named
    rw [if_neg named] at locked
    split
    · rename_i reserved
      rw [Bool.and_assoc, Bool.and_eq_true, Bool.not_eq_true'] at reserved
      exact decides_barred reserved.1 (closes_error (by decide) _ _ _)
    · exact decides_declareNamed args now locked

theorem decides_basicGet {q : QueueState} (found : s.queues.get? name = some q) (noAck : Bool) :
    Decides False (basicGet connId name noAck : Act env (List Frame)) s := by
  refine decides_free id ?_
  unfold basicGet
  simp only [result_bind, result_look, final_look, found]
  split
  · change NoClose [.basicGetEmpty]
    simp [NoClose]
  · rename_i qm rest _
    simp only [result_bind, result_look, final_look]
    split
    · change NoClose [.basicGetEmpty]
      simp [NoClose]
    · rename_i m _
      have got : NoClose [.basicGetOk m.id m.redelivered m.exchange m.routingKey (asU32 rest.len)
          m.body] := by
        simp [NoClose]
      cases noAck with
      | true =>
        rw [if_pos rfl, result_bind, result_pure]
        exact got
      | false =>
        rw [if_neg Bool.false_ne_true, result_bind, result_bind, result_pure]
        exact got

theorem decides_queuePurge {q : QueueState} (found : s.queues.get? name = some q)
    (noWait : Bool) : Decides False (queuePurge name noWait : Act env (List Frame)) s := by
  have purged : NoClose (if noWait then [] else [.queuePurgeOk (asU32 q.messages.len)]) :=
    noClose_unless (by simp [NoClose])
  refine decides_free id ?_
  unfold queuePurge
  simp only [result_bind, result_look, final_look, found]
  exact purged

theorem decides_queueDelete {q : QueueState} (found : s.queues.get? name = some q)
    (ifUnused ifEmpty noWait : Bool) :
    Decides (Barred env s connId (.queueDelete name ifUnused ifEmpty noWait))
      (queueDelete connId name ifUnused ifEmpty noWait : Act env (List Frame)) s := by
  have deleted : NoClose (if noWait then [] else [.queueDeleteOk (asU32 q.messages.len)]) :=
    noClose_unless (by simp [NoClose])
  have barred : Barred env s connId (.queueDelete name ifUnused ifEmpty noWait) ↔
      (ifUnused && !q.consumerTags.keys.isEmpty) = true ∨
        (ifEmpty && !q.messages.isEmpty) = true := by
    simp [Barred, found]
  rw [barred]
  refine decides_look ?_
  rw [found]
  dsimp only
  cases used : ifUnused && !q.consumerTags.keys.isEmpty with
  | true => exact decides_barred (.inl rfl) (closes_error (by decide) _ _ _)
  | false =>
    cases filled : ifEmpty && !q.messages.isEmpty with
    | true => exact decides_barred (.inr rfl) (closes_error (by decide) _ _ _)
    | false => exact decides_free (by simp) deleted

theorem decides_queueBind (known : s.queues.contains name = true) (exchange routingKey : String)
    (noWait : Bool) : Decides (s.exchanges.contains exchange = false)
      (queueBind name exchange routingKey noWait : Act env (List Frame)) s := by
  have bound : NoClose (if noWait then [] else [.queueBindOk]) := noClose_unless (by simp [NoClose])
  refine decides_look ?_
  rw [known]
  refine decides_look ?_
  cases s.exchanges.contains exchange with
  | true => exact decides_free Bool.noConfusion bound
  | false => exact decides_barred rfl (closes_error (by decide) _ _ _)

theorem decides_queueUnbind (known : s.queues.contains name = true)
    (exchange routingKey : String) : Decides (s.exchanges.contains exchange = false)
      (queueUnbind name exchange routingKey : Act env (List Frame)) s := by
  have unbound : NoClose [.queueUnbindOk] := by simp [NoClose]
  refine decides_look ?_
  rw [known]
  refine decides_look ?_
  cases s.exchanges.contains exchange with
  | true => exact decides_free Bool.noConfusion unbound
  | false => exact decides_barred rfl (closes_error (by decide) _ _ _)

theorem decides_basicConsume (channel : UInt16) (args : ConsumeArgs) :
    Decides (s.acceptsConsumer env connId args = false ∧ ¬ ConsumePanics env s connId args)
      (basicConsume connId channel args : Act env (List Frame)) s := by
  unfold basicConsume BrokerState.acceptsConsumer ConsumePanics
  refine decides_look (decides_look ?_)
  change Decides _ (if !checkPermission env s connId (·.read) args.queue then _ else
    if args.exclusive && s.hasConsumers args.queue then _ else _) s
  cases checkPermission env s connId (·.read) args.queue with
  | false =>
    exact decides_barred ⟨rfl, fun panics => nomatch panics.1⟩ (closes_error (by decide) _ _ _)
  | true =>
    cases args.exclusive && s.hasConsumers args.queue with
    | true =>
      exact decides_barred ⟨rfl, fun panics => nomatch panics.2.1⟩ (closes_error (by decide) _ _ _)
    | false =>
      have still : Leaves (fun s : BrokerState => (s.queues, s.exchanges))
          (validateConsumerSchema args : Act env (Option String)) :=
        validateConsumerSchema_leaves (fun _ _ => rfl) args
      have queues : ((validateConsumerSchema args : Act env (Option String)).final s).queues =
        s.queues := (Prod.mk.inj (still s)).1
      refine decides_bind still ?_
      cases (validateConsumerSchema args : Act env (Option String)).result s with
      | some text =>
        by_cases fits : FitsShortstr text
        · refine decides_barred ⟨rfl, ?_⟩ (closes_error fits _ _ _)
          rintro ⟨-, -, long, same, tooLong⟩
          rw [← Option.some.inj same] at tooLong
          exact tooLong fits
        · refine decides_free (fun barred => barred.2 ⟨rfl, rfl, text, rfl, fits⟩) ?_
          have silent : (sendChannelError preconditionFailed text classBasic methodBasicConsume :
              Act env (List Frame)).result s = [] := if_neg fits
          exact silent ▸ noClose_nil
      | none =>
        generalize (validateConsumerSchema args : Act env (Option String)).final s = t at queues
        rw [← queues]
        have calm : ¬ (true = true ∧ false = false ∧
            ∃ text ∈ (none : Option String), ¬ FitsShortstr text) := by simp
        refine decides_look ?_
        cases t.queues.contains args.queue with
        | false => exact decides_barred ⟨rfl, calm⟩ (closes_error (by decide) _ _ _)
        | true =>
          have consumed : NoClose (if args.noWait then [] else
              [.basicConsumeOk ((basicConsume.assignTag connId args : Act env String).result t)]) :=
            noClose_unless (by simp [NoClose])
          exact decides_free (by simp) consumed

theorem barred_basicConsume {args : ConsumeArgs} (known : s.queues.contains args.queue = true) :
    Barred env s connId (.basicConsume args) ↔
      s.acceptsConsumer env connId args = false ∧ ¬ ConsumePanics env s connId args := by
  unfold Barred BrokerState.acceptsConsumer BrokerState.hasConsumers
  rw [known, Bool.and_true, Bool.and_eq_false_iff, Bool.and_eq_false_iff, Bool.not_eq_false',
    Bool.and_eq_true, or_assoc, Option.isNone_eq_false_iff]

theorem decides_method {m : Method} (named : name ∈ m.queue? s) (locked : Locked s connId name) :
    Decides (Barred env s connId m)
      (handle (dispatchMethod connId channel m) : Act env (List Frame)) s := by
  obtain ⟨q, owner, found, rest⟩ := id locked
  have known : s.queues.contains name = true := by
    rw [FinMap.contains, found]
    rfl
  cases m with
  | queueDeclare args now =>
    obtain rfl := Option.some.inj named
    exact decides_queueDeclare args now locked
  | queueDelete queue ifUnused ifEmpty noWait =>
    obtain rfl := Option.some.inj named
    exact decides_queueDelete found ifUnused ifEmpty noWait
  | queuePurge queue noWait =>
    obtain rfl := Option.some.inj named
    exact decides_queuePurge found noWait
  | queueBind queue exchange routingKey noWait =>
    obtain rfl := Option.some.inj named
    exact decides_queueBind known exchange routingKey noWait
  | queueUnbind queue exchange routingKey =>
    obtain rfl := Option.some.inj named
    exact decides_queueUnbind known exchange routingKey
  | basicConsume args =>
    obtain rfl := Option.some.inj named
    rw [barred_basicConsume known]
    exact decides_basicConsume channel args
  | basicGet queue noAck =>
    obtain rfl := Option.some.inj named
    exact decides_basicGet found noAck
  | _ => cases named

theorem refused_iff {m : Method} (named : name ∈ m.queue? s) (locked : Locked s connId name) :
    Refused env s name (dispatchMethod connId channel m) ↔ Barred env s connId m := by
  obtain ⟨closes, answers⟩ := @decides_method env _ _ channel _ _ named locked
  constructor
  · rintro ⟨⟨code, text, classId, methodId, close⟩, -, -⟩
    by_contra free
    exact answers free code text classId methodId close
  · intro barred
    obtain ⟨close, queues, exchanges⟩ := closes barred
    refine ⟨close, congrArg (·.get? name) queues, fun exchange => ?_⟩
    exact congrArg (fun exchanges => (exchanges.get? exchange).map fun ex =>
      ex.bindings.filter (·.queueName == name)) exchanges

end

/-- In any run, from any state, every locked queue is refused to everyone but its owner exactly
    if the methods have those reasons. -/
theorem locked_refused_iff (env : Env) (s : BrokerState) (inputs : List Input) :
    Along (fun s i => served env s i.op) (LocksOut env) s inputs ↔
      Along (fun s i => served env s i.op) (LocksOutBy env) s inputs := by
  refine along_congr (along_true s inputs) fun s i _ => ?_
  cases i with
  | event op => exact Iff.rfl
  | method connId channel m =>
    refine forall_congr' fun name => forall_congr' fun named => forall_congr' fun locked => ?_
    exact refused_iff named locked

/-- A queue of the first connection alone, with a message, and a second connection. -/
def ownQueue : BrokerState := reached (plainEnv 64 1) guestOnly none
  [.connect "127.0.0.1:50000" "guest" "/", .channelOpen 1 1,
    .queueDeclare 1 ⟨"q", false, false, true, false, false, []⟩ 0, publishTo "q" false [7],
    .connect "127.0.0.1:50001" "guest" "/", .channelOpen 2 1]

/-- The second connection purges it. -/
theorem purge_not_refused : ¬ Along (fun s i => served (plainEnv 64 1) s i.op)
    (LocksOut (plainEnv 64 1)) ownQueue [.method 2 1 (.queuePurge "q" false)] := by
  intro along
  obtain ⟨q, found⟩ : ∃ q, ownQueue.queues.get? "q" = some q :=
    Option.isSome_iff_exists.mp (by decide +kernel)
  have options : (ownQueue.queues.get? "q").map (fun q => (q.options.exclusive, q.ownerConnId)) =
      some (true, some 1) := by
    decide +kernel
  rw [found] at options
  obtain ⟨exclusive, owned⟩ := Prod.mk.inj (Option.some.inj options)
  have locked : Locked ownQueue 2 "q" :=
    ⟨q, 1, found, exclusive, owned, by decide, by decide +kernel⟩
  obtain ⟨code, text, classId, methodId, close⟩ := (along.1 "q" rfl locked).closes
  have purged : answer (plainEnv 64 1) ownQueue (.queuePurge "q" false) = [.queuePurgeOk 1] := by
    decide +kernel
  have same : [Frame.queuePurgeOk 1] = [.channelClose code text classId methodId] :=
    purged.symm.trans close
  simp at same

end RocketmqBroker
