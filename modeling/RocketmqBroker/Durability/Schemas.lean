import RocketmqBroker.Durability.Objects
import RocketmqBroker.Lib.StepCount
import RocketmqBroker.Routing.DefaultBindings

/-!
The schema of a queue after a crash. It is logged when the queue is created and at no other
time, while every later declaration may set, replace or remove it; and what is logged is what
was compiled, also if the same declaration asks to have the schema removed.
-/
namespace RocketmqBroker
open Run Run.Program

def CompiledSchema.enforced (c : CompiledSchema) : Bytes × String :=
  (c.descriptorSetBytes, c.messageName)

structure QueueDeclaration where
  connId : UInt64
  args : QueueDeclareArgs
  now : Instant

def QueueDeclaration.op (d : QueueDeclaration) : Op := .queueDeclare d.connId d.args d.now

namespace QueueDeclareArgs

def deletesSchema (args : QueueDeclareArgs) : Bool := args.arguments.containsKey "x-schema-delete"

def clashes (env : Env) (args : QueueDeclareArgs) (old : Option CompiledSchema)
    (new : CompiledSchema) : Bool :=
  !args.arguments.containsKey "x-schema-override" &&
    (old.bind fun c => env.checkSchemaConflict c new).isSome

def schemaAfter (env : Env) (args : QueueDeclareArgs) (compiled old : Option CompiledSchema) :
    Option CompiledSchema :=
  if args.deletesSchema then none
  else compiled.elim old fun new => if args.clashes env old new then old else some new

end QueueDeclareArgs

namespace BrokerState

def mark (s : BrokerState) (name : String) : Option (Bool × Option CompiledSchema) :=
  (s.queues.get? name).map fun q => (q.options.durable, q.schema)

def compiled (env : Env) (s : BrokerState) (args : QueueDeclareArgs) : Option CompiledSchema :=
  ((compileQueueSchema args.options :
    Act env (Except SchemaError (Option CompiledSchema))).result s).toOption.join

def lockedFor (s : BrokerState) (connId : UInt64) (name : String) : Bool :=
  (s.queues.get? name).any fun q => q.options.exclusive && q.ownerConnId != some connId

def admits (env : Env) (s : BrokerState) (d : QueueDeclaration) : Bool :=
  s.acceptsDeclare env d.connId d.args && !s.lockedFor d.connId (s.declaredName d.args)

end BrokerState

def declaredBy (env : Env) (s : BrokerState) (d : QueueDeclaration) : BrokerState :=
  served env s d.op

/-- The declaration is about this queue, and what it logs survives its length fields. -/
structure QueueDeclaration.About (env : Env) (s : BrokerState) (name : String)
    (d : QueueDeclaration) : Prop where
  named : s.declaredName d.args = name
  fitting : Along (exec env) Fitting s ((handle d.op : Act env (List Frame)).steps s)

instance (env : Env) (s : BrokerState) (name : String) (d : QueueDeclaration) :
    Decidable (d.About env s name) :=
  decidable_of_iff (s.declaredName d.args = name ∧
    Along (exec env) Fitting s ((handle d.op : Act env (List Frame)).steps s))
    ⟨fun h => ⟨h.1, h.2⟩, fun h => ⟨h.1, h.2⟩⟩

/-- A durable queue has the same schema, or none, if the broker crashes now. -/
def RecoversSchema (env : Env) (s : BrokerState) (name : String) : Prop :=
  ∀ q, s.queues.get? name = some q → q.options.durable = true →
    ∀ (now : Instant) (auth : AuthBackend) (cluster : Option ClusterCoordinator),
      (((restart env now s.wal.dir auth cluster).queues.get? name).bind (·.schema)).map
        CompiledSchema.enforced = q.schema.map CompiledSchema.enforced

/-- The declaration that creates the queue keeps the schema exactly if it logs it, and a later
    one leaves it as it is. -/
structure KeepsSchema (env : Env) (s : BrokerState) (name : String) (d : QueueDeclaration) :
    Prop where
  created : s.queues.get? name = none → d.args.options.durable = true →
    (s.compiled env d.args).isSome = true → d.args.durable = !d.args.deletesSchema
  removed : d.args.deletesSchema = true → ∀ q, s.queues.get? name = some q →
    q.options.durable = true → q.schema = none
  replaced : d.args.deletesSchema = false → ∀ q, s.queues.get? name = some q →
    q.options.durable = true → ∀ new, s.compiled env d.args = some new →
      d.args.clashes env q.schema new = false →
        q.schema.map CompiledSchema.enforced = some new.enforced

/-- What recovery has of a schema, record by record; `none` as long as there is no queue. -/
def restoreSchema (env : Env) (name : String) (found : Option (Option CompiledSchema)) :
    LogRecord → Option (Option CompiledSchema)
  | .declareQueue queue durable =>
    if durable ∧ name = queue then some (found.getD none) else found
  | .setQueueSchema schemaId queue rawProto descriptorSetBytes messageName =>
    match reconstructSchema env.proto schemaId rawProto descriptorSetBytes messageName with
    | .ok compiled => if name = queue then found.map fun _ => some compiled else found
    | .error _ => found
  | _ => found

def loggedSchema (env : Env) (rs : List LogRecord) (name : String) :
    Option (Option CompiledSchema) := rs.foldl (restoreSchema env name) none

section
variable {env : Env} {s : BrokerState} {name : String}

theorem restoreQueue_schema (now : Instant) (acked : List UInt64) (found : Option QueueState)
    (r : LogRecord) : (restoreQueue env now acked name found r).map (·.schema) =
      restoreSchema env name (found.map (·.schema)) r := by
  cases r with
  | declareQueue queue durable =>
    simp only [restoreQueue, restoreSchema]
    split
    · cases found with
      | none => rfl
      | some q => rfl
    · rfl
  | enqueue queue msgId exchange routingKey headers body =>
    simp only [restoreQueue, restoreSchema]
    split
    · cases found with
      | none => rfl
      | some q => rfl
    · rfl
  | setQueueSchema schemaId queue rawProto descriptorSetBytes messageName =>
    simp only [restoreQueue, restoreSchema]
    cases reconstructSchema env.proto schemaId rawProto descriptorSetBytes messageName with
    | error err => rfl
    | ok compiled =>
      dsimp only
      split
      · cases found with
        | none => rfl
        | some q => rfl
      · rfl
  | ack | declareExchange | bind | raft => rfl

theorem schema_restart (backed : Backed env s) (now : Instant) (auth : AuthBackend)
    (cluster : Option ClusterCoordinator) (name : String) :
    ((restart env now s.wal.dir auth cluster).queues.get? name).map (·.schema) =
      loggedSchema env (records env s) name := by
  rw [restart_eq backed, replayRecords, get?_queues_foldl]
  have general (rs : List LogRecord) (acked : List UInt64) (found : Option QueueState) :
      (rs.foldl (restoreQueue env now acked name) found).map (·.schema) =
        rs.foldl (restoreSchema env name) (found.map (·.schema)) := by
    induction rs generalizing found with
    | nil => rfl
    | cons r rs ih => rw [List.foldl_cons, List.foldl_cons, ih, restoreQueue_schema]
  exact general _ _ none

theorem recoversSchema_iff (backed : Backed env s) : RecoversSchema env s name ↔
    ∀ old, s.mark name = some (true, old) →
      (loggedSchema env (records env s) name).join.map CompiledSchema.enforced =
        old.map CompiledSchema.enforced := by
  have logged (now : Instant) (auth : AuthBackend) (cluster : Option ClusterCoordinator) :
      ((restart env now s.wal.dir auth cluster).queues.get? name).bind (·.schema) =
        (loggedSchema env (records env s) name).join := by
    rw [← schema_restart backed now auth cluster name]
    cases (restart env now s.wal.dir auth cluster).queues.get? name with
    | none => rfl
    | some q => rfl
  unfold RecoversSchema BrokerState.mark
  simp only [logged]
  constructor
  · intro recovers old found
    obtain ⟨q, present, same⟩ := Option.map_eq_some_iff.mp found
    obtain ⟨durable, rfl⟩ := Prod.mk.inj same
    exact recovers q present durable 0 ∅ none
  · intro same q present durable now auth cluster
    refine same q.schema ?_
    rw [present, Option.map_some, durable]

theorem isSome_loggedSchema (env : Env) (rs : List LogRecord) (name : String) :
    (loggedSchema env rs name).isSome = logsQueue rs name := by
  have step (found : Option (Option CompiledSchema)) (r : LogRecord) :
      (restoreSchema env name found r).isSome = (found.isSome || r.declares name) := by
    cases r with
    | declareQueue queue durable =>
      simp only [restoreSchema, LogRecord.declares]
      by_cases here : durable = true ∧ name = queue
      · obtain ⟨rfl, rfl⟩ := here
        simp
      · rw [if_neg here]
        have other : (durable && queue == name) = false := by
          rw [Bool.and_eq_false_iff, beq_eq_false_iff_ne]
          by_cases logs : durable = true
          · exact Or.inr fun same => here ⟨logs, same.symm⟩
          · exact Or.inl (Bool.eq_false_iff.mpr logs)
        rw [other, Bool.or_false]
    | setQueueSchema =>
      simp only [restoreSchema, LogRecord.declares, Bool.or_false]
      split
      · split
        · exact Option.isSome_map
        · rfl
      · rfl
    | enqueue | ack | declareExchange | bind | raft => exact (Bool.or_false _).symm
  have general (found : Option (Option CompiledSchema)) :
      (rs.foldl (restoreSchema env name) found).isSome =
        (found.isSome || rs.any (LogRecord.declares name)) := by
    induction rs generalizing found with
    | nil => exact (Bool.or_false _).symm
    | cons r rs ih => rw [List.foldl_cons, ih, step, List.any_cons, Bool.or_assoc]
  exact general none

theorem reconstructSchema_ok {tools : ProtoTools} {id : UInt64} {raw descriptorSetBytes : Bytes}
    {messageName : String} {c : CompiledSchema}
    (built : reconstructSchema tools id raw descriptorSetBytes messageName = .ok c) :
    reconstructSchema tools c.id c.raw c.descriptorSetBytes c.messageName = .ok c := by
  have fields : c = ⟨id, raw, descriptorSetBytes, messageName⟩ := by
    unfold reconstructSchema at built
    split at built
    · cases built
    · split at built
      · exact (Except.ok.inj built).symm
      · cases built
  subst fields
  exact built

theorem compileProto_ok {tools : ProtoTools} {nextSchemaId : UInt64} {raw : Bytes}
    {messageName : String} {c : CompiledSchema}
    (built : (compileProto tools nextSchemaId raw messageName).2 = .ok c) :
    reconstructSchema tools c.id c.raw c.descriptorSetBytes c.messageName = .ok c := by
  unfold compileProto at built
  split at built
  · cases built
  · dsimp only at built
    split at built
    · cases built
    · exact reconstructSchema_ok built

theorem reconstruct_compiled {args : QueueDeclareArgs} {c : CompiledSchema}
    (compiled : s.compiled env args = some c) :
    reconstructSchema env.proto c.id c.raw c.descriptorSetBytes c.messageName = .ok c := by
  unfold BrokerState.compiled compileQueueSchema at compiled
  split at compiled
  · cases compiled
  · dsimp only at compiled
    split at compiled
    · cases compiled
    · split at compiled
      · cases compiled
      · rename_i raw _ _ _ messageName _
        rw [result_bind, result_bind] at compiled
        have seen : (look fun s => compileProto env.proto s.nextSchemaId raw messageName :
            Act env _).result s = compileProto env.proto s.nextSchemaId raw messageName := rfl
        rw [seen] at compiled
        cases built : (compileProto env.proto s.nextSchemaId raw messageName).2 with
        | error err =>
          rw [built] at compiled
          cases compiled
        | ok schema =>
          rw [built] at compiled
          obtain rfl : schema = c := Option.some.inj compiled
          exact compileProto_ok built

def creationRecords (name : String) (compiled : Option CompiledSchema) : List LogRecord :=
  .declareQueue name true :: (compiled.toList.map fun c =>
    .setQueueSchema c.id name c.raw c.descriptorSetBytes c.messageName)

theorem loggedSchema_created {rs : List LogRecord} {args : QueueDeclareArgs}
    (unlogged : logsQueue rs name = false) :
    loggedSchema env (rs ++ creationRecords name (s.compiled env args)) name =
      some (s.compiled env args) := by
  have absent : rs.foldl (restoreSchema env name) none = none := by
    rw [← Option.isNone_iff_eq_none, ← Option.not_isSome, Bool.not_eq_true']
    exact (isSome_loggedSchema env rs name).trans unlogged
  have declared : restoreSchema env name none (.declareQueue name true) = some none :=
    if_pos ⟨rfl, rfl⟩
  rw [loggedSchema, List.foldl_append, absent, creationRecords, List.foldl_cons, declared]
  cases compiled : s.compiled env args with
  | none => rfl
  | some c =>
    simp only [Option.toList_some, List.map_cons, List.map_nil, List.foldl_cons, List.foldl_nil,
      restoreSchema, reconstruct_compiled compiled, if_true, Option.map_some]

structure Leads {α : Type} (name : String) (p : Act env α) (s : BrokerState)
    (found : Option (Bool × Option CompiledSchema)) (rs : List LogRecord) : Prop where
  mark : (p.final s).mark name = found
  written : p.written (fun s e => e.logged s) s = rs

theorem Leads.bind {α β : Type} {p : Act env α} {f : α → Act env β}
    {first second : Option (Bool × Option CompiledSchema)} {rs rs' : List LogRecord}
    (here : Leads name p s first rs)
    (there : Leads name (f (p.result s)) (p.final s) second rs') :
    Leads name (p >>= f) s second (rs ++ rs') := by
  refine ⟨?_, ?_⟩
  · rw [final_bind]
    exact there.mark
  · rw [written_bind, here.written, there.written]

theorem Leads.bind_unlogged {α β : Type} {p : Act env α} {f : α → Act env β}
    {first second : Option (Bool × Option CompiledSchema)} {rs : List LogRecord}
    (here : Leads name p s first rs)
    (there : Leads name (f (p.result s)) (p.final s) second []) :
    Leads name (p >>= f) s second rs := by
  have both := here.bind there
  rw [List.append_nil] at both
  exact both

def Effect.isSilent : Effect → Bool
  | books _ | alloc | bind _ _ false => true
  | _ => false

theorem mark_silent {e : Effect} (silent : e.isSilent = true) (s : BrokerState) :
    (exec env s e).mark name = s.mark name := by
  unfold BrokerState.mark
  rw [(exec_memory env s e).1]
  cases e with
  | books change => rw [Effect.inMemory, change.queues]
  | alloc | bind => rfl
  | _ => cases silent

theorem logged_silent (s : BrokerState) (e : Effect) (silent : e.isSilent = true) :
    e.logged s = [] := by
  cases e with
  | books | alloc => rfl
  | bind exchange b logs =>
    cases logs with
    | false => rfl
    | true => cases silent
  | _ => cases silent

theorem leads_silent {α : Type} {p : Act env α}
    (silent : Takes (fun e => e.isSilent = true) p) (s : BrokerState) :
    Leads name p s (s.mark name) [] := by
  refine ⟨?_, silent.written_eq_nil logged_silent s⟩
  exact silent.keeps (P := fun t => t.mark name = s.mark name)
    (fun t e quiet before => (mark_silent quiet t).trans before) rfl

theorem mark_tune (queue : String) (t : Tuning) (s : BrokerState) :
    (exec env s (.tune queue t)).mark queue =
      (s.queues.get? queue).map fun q => (q.options.durable, (t.apply q).schema) := by
  unfold BrokerState.mark
  rw [(exec_memory env s _).1, Effect.inMemory, get?_modifyQueue, if_pos rfl, Option.map_map]
  refine congrArg (Option.map · _) (funext fun q => ?_)
  exact congrArg (fun opts : QueueOptions => (opts.durable, (t.apply q).schema)) (t.options q)

variable {args : QueueDeclareArgs}

theorem leads_declareSchema {durable : Bool} {old : Option CompiledSchema}
    (found : s.mark name = some (durable, old)) (compiled : Option CompiledSchema) :
    Leads name (declareSchema name args.arguments compiled : Act env (Option String)) s
      (some (durable, args.schemaAfter env compiled old)) [] := by
  obtain ⟨q, present, same⟩ := Option.map_eq_some_iff.mp found
  obtain ⟨rfl, rfl⟩ := Prod.mk.inj same
  have tuned (t : Tuning) (text : Option String) :
      Leads name (do perform (.tune name t); return text : Act env (Option String)) s
        (some (q.options.durable, (t.apply q).schema)) [] := by
    refine ⟨?_, rfl⟩
    rw [final_bind]
    change (exec env s (.tune name t)).mark name = _
    rw [mark_tune, present]
    rfl
  unfold declareSchema QueueDeclareArgs.schemaAfter QueueDeclareArgs.deletesSchema
  split
  · exact tuned _ none
  · cases compiled with
    | none => exact ⟨found, rfl⟩
    | some new =>
      -- the conflict that the handler finds is the one of the schema that is there
      have clashes : (if args.arguments.containsKey "x-schema-override" then none
          else (s.queues.get? name).bind fun q => q.schema.bind fun c =>
            env.checkSchemaConflict c new).isSome = args.clashes env q.schema new := by
        unfold QueueDeclareArgs.clashes
        rw [present, Option.bind_some]
        cases args.arguments.containsKey "x-schema-override" with
        | true => rfl
        | false => rfl
      refine (leads_silent (takes_read _) s).bind ?_
      split
      · rename_i description conflict
        have clash : args.clashes env q.schema new = true :=
          clashes.symm.trans (congrArg Option.isSome conflict)
        rw [Option.elim_some, if_pos clash]
        exact ⟨found, rfl⟩
      · rename_i free
        have fits : args.clashes env q.schema new = false :=
          clashes.symm.trans (congrArg Option.isSome free)
        rw [Option.elim_some, fits, if_neg Bool.false_ne_true]
        exact tuned _ none

theorem leads_finishDeclare {durable : Bool} {old : Option CompiledSchema}
    (found : s.mark name = some (durable, old)) (compiled : Option CompiledSchema) :
    Leads name (finishDeclare name args compiled : Act env (List Frame)) s
      (some (durable, args.schemaAfter env compiled old)) [] := by
  have schema : Leads name
      (declareSchema name args.arguments compiled : Act env (Option String)) s _ [] :=
    leads_declareSchema found compiled
  unfold finishDeclare
  rw [← schema.mark]
  refine schema.bind (leads_silent ?_ _)
  split
  · exact takes_pure _
  · exact Takes.bind (takes_perform rfl) fun _ => takes_sendDeclareOk name args.noWait

def markAfter (env : Env) (args : QueueDeclareArgs) (compiled : Option CompiledSchema) :
    Option (Bool × Option CompiledSchema) → Option (Bool × Option CompiledSchema)
  | none => some (args.options.durable, args.schemaAfter env compiled none)
  | some (durable, old) => some (durable, args.schemaAfter env compiled old)

def declarationRecords (name : String) (args : QueueDeclareArgs)
    (compiled : Option CompiledSchema) : Option (Bool × Option CompiledSchema) → List LogRecord
  | none => if args.durable then creationRecords name compiled else []
  | some _ => []

theorem leads_createQueue {q : NewQueue} {logs : Bool} {schema : Option CompiledSchema}
    (absent : s.queues.get? name = none) :
    Leads name (perform (.createQueue name q logs schema) : Act env Unit) s
      (some (q.state.options.durable, q.state.schema))
      (if logs then creationRecords name schema else []) := by
  have missing : s.queues.contains name = false := by
    unfold FinMap.contains
    rw [absent]
    rfl
  refine ⟨?_, written_perform _ s⟩
  rw [final_performed, BrokerState.mark, get?_createQueue missing]
  rfl

theorem leads_createDeclared (absent : s.queues.get? name = none) (connId : UInt64)
    (now : Instant) (compiled : Option CompiledSchema) :
    Leads name (do
        let owner := if args.exclusive then some connId else none
        perform (.createQueue name (.declared name args.options owner now) args.durable compiled)
        if args.exclusive then
          change { apply := fun s => s.registerExclusiveQueue connId name }
        finishDeclare name args compiled : Act env (List Frame)) s
      (markAfter env args compiled none) (declarationRecords name args compiled none) := by
  have created (owner : Option UInt64) : Leads name (perform (.createQueue name
      (.declared name args.options owner now) args.durable compiled) : Act env Unit) s _ _ :=
    leads_createQueue absent
  refine (created _).bind_unlogged ?_
  split
  · have registered (u : BrokerState) : Leads name
        (change { apply := fun s => s.registerExclusiveQueue connId name } : Act env Unit) u
        (u.mark name) [] := leads_silent (takes_perform rfl) u
    refine (registered _).bind (leads_finishDeclare ?_ compiled)
    exact (registered _).mark.trans (created (some connId)).mark
  · exact leads_finishDeclare (created _).mark compiled

theorem leads_declareActive (s : BrokerState) (connId : UInt64) (args : QueueDeclareArgs)
    (now : Instant) : Leads name (declareActive connId name args now : Act env (List Frame)) s
      (if s.compiles env args && !s.lockedFor connId name then
        markAfter env args (s.compiled env args) (s.mark name) else s.mark name)
      (if s.compiles env args && !s.lockedFor connId name then
        declarationRecords name args (s.compiled env args) (s.mark name) else []) := by
  have compiling : Takes (fun e => e.isSilent = true)
      (compileQueueSchema args.options : Act env (Except SchemaError (Option CompiledSchema))) :=
    @takes_compileQueueSchema _ _ none (fun _ _ => rfl) _
  have quiet : Leads name (compileQueueSchema args.options : Act env _) s (s.mark name) [] :=
    leads_silent compiling s
  unfold declareActive
  refine (leads_silent (takes_read _) s).bind ?_
  change Leads name (if s.lockedFor connId name then _ else _) s _ _
  cases s.lockedFor connId name with
  | true =>
    rw [Bool.not_true, Bool.and_false]
    exact ⟨rfl, rfl⟩
  | false =>
    rw [Bool.not_false, Bool.and_true, if_neg Bool.false_ne_true]
    refine quiet.bind ?_
    unfold BrokerState.compiles BrokerState.compiled
    cases (compileQueueSchema args.options : Act env _).result s with
    | error err => exact ⟨quiet.mark, rfl⟩
    | ok compiled =>
      change Leads name (if (s.queues.get? name).isNone then _ else _) _
        (markAfter env args compiled (s.mark name))
        (declarationRecords name args compiled (s.mark name))
      have behind := quiet.mark
      generalize (compileQueueSchema args.options : Act env _).final s = t at behind
      cases found : s.queues.get? name with
      | some q =>
        have known : s.mark name = some (q.options.durable, q.schema) := by
          rw [BrokerState.mark, found]
          rfl
        rw [known] at behind ⊢
        exact leads_finishDeclare behind compiled
      | none =>
        have unknown : s.mark name = none := by
          rw [BrokerState.mark, found]
          rfl
        rw [unknown] at behind ⊢
        have absent : t.queues.get? name = none := Option.map_eq_none_iff.mp behind
        rw [Option.isNone_none, if_pos rfl]
        exact leads_createDeclared absent connId now compiled

theorem leads_declareNamed (s : BrokerState) (connId : UInt64) (args : QueueDeclareArgs)
    (now : Instant) {come : Bool} (comes : come = (!args.passive &&
      checkPermission env s connId (·.configure) name && s.compiles env args &&
        !s.lockedFor connId name)) :
    Leads name (queueDeclare.declareNamed connId args now name : Act env (List Frame)) s
      (if come then markAfter env args (s.compiled env args) (s.mark name) else s.mark name)
      (if come then declarationRecords name args (s.compiled env args) (s.mark name) else []) := by
  subst comes
  unfold queueDeclare.declareNamed
  cases args.passive with
  | true =>
    rw [if_pos rfl]
    refine leads_silent ((takes_read _).bind fun known => ?_) s
    split
    · exact takes_sendDeclareOk name args.noWait
    · exact takes_pure _
  | false =>
    rw [if_neg Bool.false_ne_true]
    refine (leads_silent (takes_read _) s).bind ?_
    change Leads name (if !checkPermission env s connId (·.configure) name then _ else _) s _ _
    cases checkPermission env s connId (·.configure) name with
    | false => exact ⟨rfl, rfl⟩
    | true => exact leads_declareActive s connId args now

theorem leads_queueDeclare (s : BrokerState) (d : QueueDeclaration)
    (onIt : s.declaredName d.args = name) : Leads name (handle d.op : Act env (List Frame)) s
      (if s.admits env d then markAfter env d.args (s.compiled env d.args) (s.mark name)
        else s.mark name)
      (if s.admits env d then declarationRecords name d.args (s.compiled env d.args) (s.mark name)
        else []) := by
  change Leads name (queueDeclare d.connId d.args d.now : Act env (List Frame)) s _ _
  unfold queueDeclare BrokerState.admits BrokerState.acceptsDeclare
  rw [onIt]
  unfold BrokerState.declaredName at onIt
  cases empty : d.args.name.isEmpty with
  | true =>
    rw [empty, if_pos rfl] at onIt
    subst onIt
    rw [if_pos rfl, Bool.true_or, Bool.and_true]
    refine (leads_silent (takes_read _) s).bind ((leads_silent (takes_perform rfl) s).bind ?_)
    have same : (exec env s .alloc).compiled env d.args = s.compiled env d.args := by
      unfold BrokerState.compiled
      rw [compileQueueSchema_congr (s := s) (t := exec env s .alloc) env rfl]
    have named : Leads ("amq.gen-" ++ toString s.nextMsgId)
        (queueDeclare.declareNamed d.connId d.args d.now _ : Act env (List Frame))
        (exec env s .alloc) _ _ := leads_declareNamed (exec env s .alloc) d.connId d.args d.now rfl
    rw [compiles_congr (s := s) (t := exec env s .alloc) env rfl, same] at named
    exact named
  | false =>
    rw [empty, if_neg Bool.false_ne_true] at onIt
    subst onIt
    rw [if_neg Bool.false_ne_true, Bool.false_or]
    have named : Leads d.args.name
        (queueDeclare.declareNamed d.connId d.args d.now _ : Act env (List Frame)) s _ _ :=
      leads_declareNamed s d.connId d.args d.now rfl
    cases passive : d.args.passive with
    | true =>
      rw [passive] at named
      exact named
    | false =>
      rw [passive] at named
      rw [Bool.not_false, Bool.true_and, Bool.true_and]
      cases "amq.".isPrefixOf d.args.name && !"amq.gen-".isPrefixOf d.args.name with
      | true => exact ⟨rfl, rfl⟩
      | false => exact named

theorem records_run (backed : Backed env s) {es : List Effect}
    (fitting : Along (exec env) Fitting s es) (appends : ∀ e ∈ es, e ≠ .compact) :
    Backed env (run (exec env) s es) ∧ records env (run (exec env) s es) =
      records env s ++ written (exec env) (fun s e => e.logged s) s es := by
  induction es generalizing s with
  | nil => exact ⟨backed, (List.append_nil _).symm⟩
  | cons e es ih =>
    have first := appends e List.mem_cons_self
    have next := (backed_exec backed fitting.1).1
    obtain ⟨after, logged⟩ := ih next fitting.2 fun e' member =>
      appends e' (List.mem_cons_of_mem _ member)
    refine ⟨after, logged.trans ?_⟩
    rw [records_exec backed fitting.1 first, Run.written, List.append_assoc]

theorem records_declared (backed : Backed env s) (d : QueueDeclaration)
    (onIt : s.declaredName d.args = name)
    (fitting : Along (exec env) Fitting s ((handle d.op : Act env (List Frame)).steps s)) :
    Backed env (served env s d.op) ∧ records env (served env s d.op) = records env s ++
      if s.admits env d then declarationRecords name d.args (s.compiled env d.args) (s.mark name)
      else [] := by
  have appends : ∀ e ∈ (handle d.op : Act env (List Frame)).steps s, e ≠ .compact := by
    rintro e member rfl
    exact Bool.false_ne_true (takes_handle d.op s _ member)
  have run := records_run backed fitting appends
  have leads : Leads name (handle d.op : Act env (List Frame)) s _ _ := leads_queueDeclare s d onIt
  have logs := leads.written
  rw [Program.written] at logs
  rw [logs] at run
  exact run

theorem schemaAfter_new (env : Env) (args : QueueDeclareArgs) (compiled : Option CompiledSchema) :
    args.schemaAfter env compiled none = if args.deletesSchema then none else compiled := by
  unfold QueueDeclareArgs.schemaAfter
  cases compiled with
  | none => rfl
  | some new =>
    have free : args.clashes env none new = false := Bool.and_false _
    rw [Option.elim_some, free]
    rfl

theorem created_iff (env : Env) {rs : List LogRecord} (unlogged : logsQueue rs name = false)
    (args : QueueDeclareArgs) : (loggedSchema env (rs ++ declarationRecords name args
      (s.compiled env args) none) name).join.map CompiledSchema.enforced =
        (args.schemaAfter env (s.compiled env args) none).map CompiledSchema.enforced ↔
      ((s.compiled env args).isSome = true → args.durable = !args.deletesSchema) := by
  have absent : loggedSchema env rs name = none := by
    rw [← Option.isNone_iff_eq_none, ← Option.not_isSome, Bool.not_eq_true', isSome_loggedSchema]
    exact unlogged
  rw [schemaAfter_new, declarationRecords]
  cases args.durable with
  | true =>
    rw [if_pos rfl, loggedSchema_created unlogged]
    cases s.compiled env args with
    | none => exact iff_of_true (by rw [ite_self]; rfl) fun none => nomatch none
    | some c =>
      cases args.deletesSchema with
      | true => exact iff_of_false (fun same => nomatch same) fun same => nomatch same rfl
      | false => exact iff_of_true rfl fun _ => rfl
  | false =>
    rw [if_neg Bool.false_ne_true, List.append_nil, absent]
    cases s.compiled env args with
    | none => exact iff_of_true (by rw [ite_self]; rfl) fun none => nomatch none
    | some c =>
      cases args.deletesSchema with
      | true => exact iff_of_true rfl fun _ => rfl
      | false => exact iff_of_false (fun same => nomatch same) fun same => nomatch same rfl

theorem redeclared_iff (env : Env) (args : QueueDeclareArgs) {old : Option CompiledSchema}
    (compiled : Option CompiledSchema) :
    (args.schemaAfter env compiled old).map CompiledSchema.enforced =
      old.map CompiledSchema.enforced ↔
      (args.deletesSchema = true → old = none) ∧
      (args.deletesSchema = false → ∀ new, compiled = some new →
        args.clashes env old new = false →
          old.map CompiledSchema.enforced = some new.enforced) := by
  unfold QueueDeclareArgs.schemaAfter
  cases args.deletesSchema with
  | true =>
    rw [if_pos rfl, Option.map_none, eq_comm, Option.map_eq_none_iff]
    simp only [forall_const, Bool.true_eq_false, false_imp_iff, and_true]
  | false =>
    rw [if_neg Bool.false_ne_true]
    simp only [Bool.false_eq_true, false_imp_iff, true_and, forall_const]
    cases compiled with
    | none => exact iff_of_true rfl fun _ absent => nomatch absent
    | some new =>
      rw [Option.elim_some]
      cases clash : args.clashes env old new with
      | true =>
        refine iff_of_true rfl fun new' same free => ?_
        obtain rfl := Option.some.inj same
        exact absurd (clash.symm.trans free) (Bool.noConfusion)
      | false =>
        rw [if_neg Bool.false_ne_true, Option.map_some, eq_comm]
        refine ⟨fun same new' here _ => ?_, fun same => same new rfl clash⟩
        obtain rfl := Option.some.inj here
        exact same

theorem keeps_created {rs : List LogRecord} (absent : s.queues.get? name = none)
    (unlogged : logsQueue rs name = false) {d : QueueDeclaration} :
    (∀ old, markAfter env d.args (s.compiled env d.args) none = some (true, old) →
      (loggedSchema env (rs ++ declarationRecords name d.args (s.compiled env d.args) none)
        name).join.map CompiledSchema.enforced = old.map CompiledSchema.enforced) ↔
      KeepsSchema env s name d := by
  have created := created_iff (s := s) env unlogged d.args
  unfold markAfter
  constructor
  · intro same
    refine ⟨fun _ durable => ?_, fun _ q found => (nomatch absent.symm.trans found),
      fun _ q found => (nomatch absent.symm.trans found)⟩
    rw [durable] at same
    exact created.mp (same _ rfl)
  · intro keeps old marked
    obtain ⟨durable, rfl⟩ := Prod.mk.inj (Option.some.inj marked)
    exact created.mpr (keeps.created absent durable)

theorem keeps_redeclared {d : QueueDeclaration} {q : QueueState}
    (found : s.queues.get? name = some q) {logged : Option (Option CompiledSchema)}
    (good : q.options.durable = true → logged.join.map CompiledSchema.enforced =
      q.schema.map CompiledSchema.enforced) :
    (∀ old, markAfter env d.args (s.compiled env d.args) (some (q.options.durable, q.schema)) =
      some (true, old) → logged.join.map CompiledSchema.enforced =
        old.map CompiledSchema.enforced) ↔ KeepsSchema env s name d := by
  have redeclared := @redeclared_iff env d.args q.schema (s.compiled env d.args)
  unfold markAfter
  constructor
  · intro same
    have still (durable : q.options.durable = true) := redeclared.mp
      ((same _ (by rw [durable])).symm.trans (good durable))
    refine ⟨fun absent => (nomatch absent.symm.trans found), fun deletes q' present durable => ?_,
      fun stays q' present durable => ?_⟩
    · obtain rfl := Option.some.inj (found.symm.trans present)
      exact (still durable).1 deletes
    · obtain rfl := Option.some.inj (found.symm.trans present)
      exact (still durable).2 stays
  · intro keeps old marked
    obtain ⟨durable, rfl⟩ := Prod.mk.inj (Option.some.inj marked)
    have still := redeclared.mpr ⟨fun deletes => keeps.removed deletes q found durable,
      fun stays => keeps.replaced stays q found durable⟩
    exact (good durable).trans still.symm

/-- What one declaration means for a crash. -/
theorem recovers_declared {d : QueueDeclaration} (backed : Backed env s)
    (known : s.queues.get? name = none → logsQueue (records env s) name = false)
    (good : RecoversSchema env s name) (about : d.About env s name) :
    RecoversSchema env (declaredBy env s d) name ↔
      (s.admits env d = true → KeepsSchema env s name d) := by
  obtain ⟨after, logged⟩ := records_declared backed d about.named about.fitting
  have leads : Leads name (handle d.op : Act env (List Frame)) s _ _ :=
    leads_queueDeclare s d about.named
  have mark : (served env s d.op).mark name = _ := leads.mark
  unfold declaredBy
  rw [recoversSchema_iff after, logged, mark]
  cases admits : s.admits env d with
  | false =>
    rw [if_neg Bool.false_ne_true, if_neg Bool.false_ne_true, List.append_nil]
    exact iff_of_true ((recoversSchema_iff backed).mp good) fun come => nomatch come
  | true =>
    rw [if_pos rfl, if_pos rfl, imp_iff_right (rfl : true = true)]
    cases found : s.queues.get? name with
    | none =>
      have unmarked : s.mark name = none := by rw [BrokerState.mark, found, Option.map_none]
      rw [unmarked]
      exact keeps_created found (known found)
    | some q =>
      have marked : s.mark name = some (q.options.durable, q.schema) := by
        rw [BrokerState.mark, found, Option.map_some]
      rw [marked, declarationRecords, List.append_nil]
      refine keeps_redeclared found fun durable => ?_
      rw [durable] at marked
      exact (recoversSchema_iff backed).mp good q.schema marked

theorem known_declared {d : QueueDeclaration} (backed : Backed env s)
    (known : s.queues.get? name = none → logsQueue (records env s) name = false)
    (about : d.About env s name) : Backed env (declaredBy env s d) ∧
      ((declaredBy env s d).queues.get? name = none →
        logsQueue (records env (declaredBy env s d)) name = false) := by
  obtain ⟨after, logged⟩ := records_declared backed d about.named about.fitting
  refine ⟨after, fun missing => ?_⟩
  have leads : Leads name (handle d.op : Act env (List Frame)) s _ _ :=
    leads_queueDeclare s d about.named
  have mark : (declaredBy env s d).mark name = _ := leads.mark
  rw [BrokerState.mark, missing, Option.map_none] at mark
  unfold declaredBy
  rw [logged]
  cases admits : s.admits env d with
  | true =>
    rw [admits, if_pos rfl] at mark
    cases found : s.mark name with
    | none =>
      rw [found] at mark
      cases mark
    | some old =>
      rw [found] at mark
      cases mark
  | false =>
    rw [admits, if_neg Bool.false_ne_true] at mark
    rw [if_neg Bool.false_ne_true, List.append_nil]
    exact known (Option.map_eq_none_iff.mp mark.symm)

/-- The queue of every run of declarations has its schema after a crash, whenever that happens,
    exactly if each of them keeps it. -/
theorem schema_recovered_iff (env : Env) (auth : AuthBackend) (cluster : Option ClusterCoordinator)
    (before : List Op) (fitting : Throughout env auth cluster Fitting before)
    (declares : List QueueDeclaration) (name : String)
    (about : Along (declaredBy env) (fun s d => d.About env s name)
      (reached env auth cluster before) declares)
    (absent : (reached env auth cluster before).queues.get? name = none)
    (unlogged : (restart env 0 (reached env auth cluster before).wal.dir auth
      cluster).queues.contains name = false) :
    (∀ done rest, declares = done ++ rest →
      RecoversSchema env (run (declaredBy env) (reached env auth cluster before) done) name) ↔
      Along (declaredBy env) (fun s d => s.admits env d = true → KeepsSchema env s name d)
        (reached env auth cluster before) declares := by
  have backed : Backed env (reached env auth cluster before) :=
    fitting.invariant (fun _ s => Backed env s) (backed_install env auth cluster).1
      fun _ _ _ allowed h => (backed_exec h allowed).1
  rw [contains_restart backed] at unlogged
  refine @throughout_iff_kept _ _ (declaredBy env) _ (fun s => RecoversSchema env s name)
    (fun s => (Backed env s ∧ (s.queues.get? name = none →
      logsQueue (records env s) name = false)) ∧ RecoversSchema env s name) _ _ _ ?_ ?_ ?_ ?_ about
  · refine ⟨⟨backed, fun _ => unlogged⟩, fun q found => ?_⟩
    exact absurd (absent.symm.trans found) (Option.some_ne_none q).symm
  · exact fun s inv => inv.2
  · intro s d about keeps ⟨⟨backed, known⟩, good⟩
    exact ⟨known_declared backed known about, (recovers_declared backed known good about).mpr keeps⟩
  · intro s d about ⟨⟨backed, known⟩, good⟩ after
    exact (recovers_declared backed known good about).mp after

end

/-- Every text compiles, to a pool with the messages M and N. -/
def twoMessages : Env :=
  { plainEnv 64 1 with proto := ⟨fun _ => some [], fun _ => some ["M", "N"]⟩ }

def declareDurable (arguments : FieldTable) : QueueDeclaration :=
  ⟨1, ⟨"q", false, true, false, false, false, arguments⟩, 0⟩

def schemaArguments (messageName : String) : FieldTable :=
  [("x-schema", .longString []), ("x-schema-type", .longString (strBytes "protobuf")),
    ("x-schema-message", .longString (strBytes messageName))]

def opened : List Op := [.connect "127.0.0.1:50000" "guest" "/", .channelOpen 1 1]

theorem schema_recovered_iff_twice :
    let s := reached twoMessages guestOnly none opened
    let declares := [declareDurable (schemaArguments "M"), declareDurable (schemaArguments "M")]
    (∀ done rest, declares = done ++ rest →
      RecoversSchema twoMessages (run (declaredBy twoMessages) s done) "q") ↔
      Along (declaredBy twoMessages) (fun s d => s.admits twoMessages d = true →
        KeepsSchema twoMessages s "q" d) s declares :=
  schema_recovered_iff twoMessages guestOnly none opened (by decide +kernel) _ "q"
    (by decide +kernel) (by decide +kernel) (by decide +kernel)

def messagesOf (declares : List QueueDeclaration) :
    Option (Bool × Option String) × Option String :=
  let s := run (declaredBy twoMessages) (reached twoMessages guestOnly none opened) declares
  let t := restart twoMessages 0 s.wal.dir guestOnly none
  ((s.mark "q").map fun mark => (mark.1, mark.2.map (·.messageName)),
    ((t.queues.get? "q").bind (·.schema)).map (·.messageName))

theorem not_recovers {declares : List QueueDeclaration} {message recovered : Option String}
    (messages : messagesOf declares = (some (true, message), recovered))
    (other : recovered ≠ message) : ¬ RecoversSchema twoMessages
      (run (declaredBy twoMessages) (reached twoMessages guestOnly none opened) declares) "q" := by
  intro recovers
  obtain ⟨here, there⟩ := Prod.mk.inj messages
  obtain ⟨mark, marked, here⟩ := Option.map_eq_some_iff.mp here
  obtain ⟨q, found, rfl⟩ := Option.map_eq_some_iff.mp marked
  obtain ⟨durable, rfl⟩ := Prod.mk.inj here
  have same := congrArg (Option.map Prod.snd) (recovers q found durable 0 guestOnly none)
  rw [Option.map_map, Option.map_map] at same
  exact other (there.symm.trans same)

/-- M is recovered where N has replaced it, where it was removed, and where the declaration that
    came with it had it removed at once. -/
theorem schema_not_recovered :
    let after (declares : List QueueDeclaration) :=
      run (declaredBy twoMessages) (reached twoMessages guestOnly none opened) declares
    let removing : FieldTable := [("x-schema-delete", .longString [])]
    let overriding : FieldTable := [("x-schema-override", .longString [])]
    ¬ RecoversSchema twoMessages (after [declareDurable (schemaArguments "M"),
      declareDurable (schemaArguments "N" ++ overriding)]) "q" ∧
    ¬ RecoversSchema twoMessages (after [declareDurable (schemaArguments "M"),
      declareDurable removing]) "q" ∧
    ¬ RecoversSchema twoMessages
      (after [declareDurable (schemaArguments "M" ++ removing)]) "q" := by
  refine ⟨@not_recovers _ (some "N") (some "M") ?_ (by decide),
    @not_recovers _ none (some "M") ?_ (by decide), @not_recovers _ none (some "M") ?_ (by decide)⟩
  · decide +kernel
  · decide +kernel
  · decide +kernel

end RocketmqBroker
