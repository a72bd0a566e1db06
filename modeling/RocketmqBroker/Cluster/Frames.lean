import RocketmqBroker.Handlers.Frame

/-!
The frames of other cluster members that change queues and exchanges
(cluster/network.rs). Declarations and bindings are taken over without a record
in the log; replicated messages and acks are logged here too.
-/
namespace RocketmqBroker

section
variable {env : Env}

def clusterDeclareQueue (name : String) (durable exclusive autoDelete : Bool)
    (queueType : String) (now : Instant) : Act env (List Frame) := do
  if !(← look fun s => s.queues.contains name) then
    let queueType := QueueType.fromAmqpArg queueType
    let opts := { QueueOptions.default with
      durable := queueType == .quorum || durable
      exclusive
      autoDelete
      queueType }
    let q : NewQueue := ⟨{ QueueState.withOptions opts now with nameArc := name }, rfl, rfl⟩
    perform (.createQueue name q false none)
    perform (.bind "" ⟨name, name, none⟩ false)
  return []

def clusterDeleteQueue (name : String) : Act env (List Frame) := do
  perform (.removeQueue name)
  return []

def clusterPurgeQueue (name : String) : Act env (List Frame) := do
  perform (.purge name)
  return []

def clusterDeclareExchange (name kind : String) (durable : Bool) : Act env (List Frame) := do
  match ExchangeType.fromStr kind with
  | some kind => perform (.createExchange name kind durable false)
  | none => pure ()
  return []

def clusterBindQueue (exchange queue routingKey : String) : Act env (List Frame) := do
  perform (.bind exchange ⟨queue, routingKey, none⟩ false)
  return []

def acceptTerm (term leaderId : UInt64) : Act env Bool := do
  match ← look fun s => s.cluster with
  | none => return false
  | some c =>
    if term < c.currentTerm then return false
    else
      if term > c.currentTerm then
        change { apply := fun s => { s with
          cluster := some { c with currentTerm := term, leaderId } } }
      return true

/-- The message is logged whether the queue is durable or not. -/
def replicatePublish (term leaderId : UInt64) (queue : String) (msgId : UInt64) (body : Bytes) :
    Act env (List Frame) := do
  let accepted ← acceptTerm term leaderId
  let known ← look fun s => s.queues.contains queue
  let success := accepted && known
  if success then perform (.replicatePublish queue msgId body)
  return [.replicateResponse term msgId success]

def replicateAck (term leaderId : UInt64) (queue : String) (msgId : UInt64) :
    Act env (List Frame) := do
  if ← acceptTerm term leaderId then
    let ready ← look fun s => (s.queues.get? queue).map (·.messages.ready)
    if ready.isSome then perform (.replicateAck queue msgId)
    let success := (ready.getD []).any fun m => m.id == msgId
    return [.replicateResponse term msgId success]
  else return [.replicateResponse term msgId false]

end
end RocketmqBroker
