import RocketmqBroker.Protocol.Codec
import RocketmqBroker.Publishing.Copies

/-!
Bindings of headers exchanges. Queue.Bind reads the table that says which headers a message
has to have, and drops it; no other path makes a binding with one either. So a headers
exchange has no queue for any message.
-/
namespace RocketmqBroker
open BigEndian ByteReader Run Run.Program

structure QueueBindArgs where
  queue : String
  exchange : String
  routingKey : String
  noWait : Bool
  arguments : FieldTable

/-- The head of `handle_bind`. What cannot be read is empty. -/
def parseQueueBind (args : Bytes) : QueueBindArgs :=
  let bs := ((readWord 2 args).map Prod.snd).getD []
  let (queue, bs) := shortstrOrDefault bs
  let (exchange, bs) := shortstrOrDefault bs
  let (routingKey, bs) := shortstrOrDefault bs
  let flags := bs.headD 0
  let arguments := ((readFieldTable bs.tail).map Prod.fst).getD []
  ⟨queue, exchange, routingKey, flags &&& 0x01 != 0, arguments⟩

/-- The rest of it makes nothing of the table. -/
def QueueBindArgs.op (args : QueueBindArgs) : Op :=
  .queueBind args.queue args.exchange args.routingKey args.noWait

inductive MatchMode where
  | all
  | any
  deriving DecidableEq, Repr

namespace MatchMode

def fromText : String → Option MatchMode
  | "all" => some .all
  | "any" => some .any
  | _ => none

def Met (mode : MatchMode) (pairs headers : FieldTable) : Prop :=
  match mode with
  | .all => ∀ pair ∈ pairs, headers.lookup pair.1 = some pair.2
  | .any => ∃ pair ∈ pairs, headers.lookup pair.1 = some pair.2

end MatchMode

namespace FieldTable

def matchMode (table : FieldTable) : Option MatchMode :=
  match table.lookup "x-match" with
  | some (.longString data) => (fromUtf8 data).bind MatchMode.fromText
  | some (.shortString s) => MatchMode.fromText s
  | _ => none

def pairs (table : FieldTable) : FieldTable := table.filter fun entry => entry.1 != "x-match"

def MetBy (table headers : FieldTable) : Prop :=
  ∃ mode ∈ table.matchMode, mode.Met table.pairs headers

end FieldTable

def Exchange.AsksNothing (ex : Exchange) : Prop := ∀ b ∈ ex.bindings, b.headersMatch = none

section
variable {env : Env} {s : BrokerState} {ex : Exchange}

theorem asksNothing_law : ExchangeLaw Exchange.AsksNothing fun b => b.headersMatch = none where
  unbound ex unbound b member := by
    rw [unbound] at member
    cases member
  plain _ _ := rfl
  adds ex b plain nothing := by
    unfold Exchange.addBinding
    split
    · exact nothing
    · intro b' member
      rcases List.mem_append.mp member with old | new
      · exact nothing b' old
      · obtain rfl := List.mem_singleton.mp new
        exact plain
  removes ex queue key nothing b member := nothing b (List.mem_filter.mp member).1

/-- An effect whose binding, if it adds one, asks for no headers. -/
abbrev Effect.Plain (e : Effect) : Prop :=
  e.BindsOnly Exchange.AsksNothing fun b => b.headersMatch = none

def Op.binds : Op → Bool
  | .exchangeBind .. | .queueBind .. | .clusterBindQueue .. | .createBindingEq ..
  | .queueDeclare .. | .clusterDeclareQueue .. => true
  | _ => false

theorem plain_of_performs {op : Op} {e : Effect} (unbinding : op.binds = false)
    (performs : op.performs e = true) : e.Plain := by
  cases e with
  | bind | appendBinding =>
    cases op <;> first | (cases performs; done) | cases unbinding
  | _ => exact trivial

theorem asksNothing_append (nothing : ex.AsksNothing) {b : Binding}
    (plain : b.headersMatch = none) :
    Exchange.AsksNothing { ex with bindings := ex.bindings ++ [b] } := by
  intro b' member
  rcases List.mem_append.mp member with old | new
  · exact nothing b' old
  · obtain rfl := List.mem_singleton.mp new
    exact plain

theorem plain_handle (op : Op) : Takes Effect.Plain (handle op : Act env (List Frame)) := by
  cases binding : op.binds with
  | false => exact (takes_handle op).mono fun e performs => plain_of_performs binding performs
  | true =>
    cases op with
    | exchangeBind | clusterBindQueue =>
      exact Takes.bind (takes_perform rfl) fun _ => takes_pure _
    | createBindingEq source dest routingKey =>
      refine (takes_read _).bind fun _ => Takes.bind (takes_perform ?_) fun _ => takes_pure _
      exact fun ex nothing => asksNothing_append nothing rfl
    | queueBind queue exchange routingKey noWait =>
      refine (takes_read _).bind fun known => ?_
      split
      · exact takes_pure _
      · refine (takes_read _).bind fun known => ?_
        split
        · exact takes_pure _
        · exact Takes.bind (takes_perform rfl) fun _ => takes_pure _
    | queueDeclare connId args now =>
      exact takes_anyDeclare (fun b (_ : b.BuffersOnly none) => trivial) trivial
        (fun _ _ _ => trivial) (fun _ _ _ _ _ => trivial) (fun _ => rfl) connId args now
    | clusterDeclareQueue name durable exclusive autoDelete queueType now =>
      refine (takes_read _).bind fun known => ?_
      split
      · refine Takes.bind (takes_perform trivial) fun _ => ?_
        exact Takes.bind (takes_perform rfl) fun _ => takes_pure _
      · exact takes_pure _
    | _ => cases binding

theorem asksNothing_reached (env : Env) (auth : AuthBackend)
    (cluster : Option ClusterCoordinator) (ops : List Op) :
    (reached env auth cluster ops).AllExchanges Exchange.AsksNothing := by
  rw [reached_eq_run]
  refine Run.keeps (P := BrokerState.AllExchanges Exchange.AsksNothing)
    (fun s op _ nothing => ?_) (fun _ _ => trivial) (allExchanges_new asksNothing_law _ _ _)
  exact (plain_handle op).keeps
    (fun t e plain before => allExchanges_exec asksNothing_law before plain) nothing

theorem ways_headers_none (nothing : ex.AsksNothing) (kind : ex.kind = .headers)
    (routingKey : String) (headers : List (String × String)) (name : String) :
    ex.ways routingKey headers name = [] := by
  refine List.filter_eq_nil_iff.mpr fun b member => ?_
  have unsent : ex.sends routingKey headers b = false := by
    unfold Exchange.sends
    rw [kind, nothing b member]
    rfl
  rw [unsent, Bool.and_false]
  exact Bool.false_ne_true

/-- In every run, a message that is published to a headers exchange reaches no queue. -/
theorem copies_headers (env : Env) (auth : AuthBackend) (cluster : Option ClusterCoordinator)
    (ops : List Op) (connId : UInt64) (channel : UInt16) (args : PublishArgs) (now : Instant)
    (name : String) (headers : ∀ ex, (reached env auth cluster ops).exchanges.get? args.exchange =
      some ex → ex.kind = .headers) :
    copies env (reached env auth cluster ops) (.basicPublish connId channel args now) name = 0 := by
  by_cases routes : ∃ ex, Routed env (reached env auth cluster ops) connId args ex
  · obtain ⟨ex, routed⟩ := routes
    have nothing := asksNothing_reached env auth cluster ops args.exchange ex routed.found
    rw [copies_routed routed, ways_headers_none nothing (headers ex routed.found),
      List.length_nil, ite_self]
  · exact copies_unrouted (not_exists.mp routes)

end

def askForAll : Bytes :=
  [0, 0, 1, 113, 11] ++ strBytes "amq.headers" ++ [0, 0] ++
    prefixed 4 ([7] ++ strBytes "x-match" ++ [83, 0, 0, 0, 3] ++ strBytes "all" ++
      [1] ++ strBytes "k" ++ [83, 0, 0, 0, 1] ++ strBytes "v")

def withHeaders (headers : FieldTable) : PublishArgs :=
  ⟨"amq.headers", "", false, { BasicProperties.default with headers := some headers }, [8]⟩

theorem askForAll_parsed : parseQueueBind askForAll =
    ⟨"q", "amq.headers", "", false, [("k", .longString [118]), ("x-match",
      .longString [97, 108, 108])]⟩ := rfl

theorem askForAll_asked : (parseQueueBind askForAll).arguments.matchMode = some .all := by
  rw [askForAll_parsed]
  decide +kernel

theorem headers_kind : ∀ ex, (reached (plainEnv 64 1) guestOnly none
    (session "q" ++ (parseQueueBind askForAll).op :: [])).exchanges.get?
      (parseQueueBind askForAll).exchange = some ex → ex.kind = .headers := by
  intro ex found
  have kind : ((reached (plainEnv 64 1) guestOnly none
    (session "q" ++ (parseQueueBind askForAll).op :: [])).exchanges.get?
      (parseQueueBind askForAll).exchange).map Exchange.kind = some .headers := by
    rw [askForAll_parsed]
    decide +kernel
  rw [found] at kind
  exact Option.some.inj kind

end RocketmqBroker
