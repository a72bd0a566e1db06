import RocketmqBroker.Handlers.Basic

/-!
The delivery round (protocol/amqp/delivery.rs): messages go from the front of a
queue to its consumers in turn, as long as their channels have room. Whether the
connection takes a delivery depends on its socket, so the answers are given.
-/
namespace RocketmqBroker

def maxDeliveriesPerPass : Nat := 100

section
variable {env : Env}

/-- A consumer whose channel or connection is gone has room. -/
def hasPrefetchCapacity (s : BrokerState) (connId : UInt64) (channel : UInt16) : Bool :=
  match s.connState.get? connId with
  | none => true
  | some cs =>
    match cs.channels.get? channel with
    | none => true
    | some ch => ch.canDeliver

def readyConsumer (s : BrokerState) (consumers : List Consumer) (pointer : Nat) :
    Nat → Nat × Option Consumer
  | 0 => (pointer, none)
  | turns + 1 =>
    match consumers[pointer % consumers.length]? with
    | none => (pointer, none)
    | some c =>
      if hasPrefetchCapacity s c.connId c.channel then (pointer + 1, some c)
      else readyConsumer s consumers (pointer + 1) turns

def nextReadyConsumer (queue : String) (consumers : List Consumer) :
    Act env (Option Consumer) := do
  let start ← look fun s => ((s.queues.get? queue).map (·.nextListener)).getD 0
  let (pointer, found) ← look fun s => readyConsumer s consumers start consumers.length
  perform (.tune queue { apply := fun q => { q with nextListener := pointer } })
  return found

def incrementUnacked (connId : UInt64) (channel : UInt16) : Act env Unit :=
  withChannel connId channel fun ch => { ch with unackedCount := ch.unackedCount + 1 }

/-- A delivery that was taken: acknowledged deliveries are tracked under the name
    the queue carries itself. -/
def trackInflight (queue : String) (c : Consumer) (tag : UInt64) (now : Instant) :
    Act env Unit := do
  perform (.pop queue .hold)
  let nameArc ← look fun s => ((s.queues.get? queue).map (·.nameArc)).getD ""
  trackDelivery c.connId nameArc tag
  perform (.tune queue { apply := fun q => { q with lastActivity := now } })
  incrementUnacked c.connId c.channel

def deliverOne (queue : String) (consumers : List Consumer) (taken : Bool) (now : Instant) :
    Act env (Bool × Bool × List Frame) := do
  match ← look fun s => (s.queues.get? queue).bind (·.messages.peekFront) with
  | none => return (false, false, [])
  | some qm =>
    match ← nextReadyConsumer queue consumers with
    | none => return (false, false, [])
    | some c =>
      match ← look fun s => qm.resolve env.crc32 s.wal with
      | .error _ =>
        perform (.pop queue .drop)
        return (true, false, [])
      | .ok m =>
        let sent ← look fun s => s.connections.contains c.connId && taken
        if !sent then
          perform (.pop queue .front)
          return (false, false, [])
        else
          if c.noAck then perform (.pop queue .drop) else trackInflight queue c m.id now
          return (true, true, [.basicDeliver c.connId c.channel c.tag m])

/-- Turns of the loop against the answers of the sockets; a pass ends after a
    hundred deliveries. -/
def deliverQueue (queue : String) (consumers : List Consumer) (now : Instant) :
    List Bool → Nat → Act env (List Frame)
  | [], _ => return []
  | taken :: answers, delivered => do
    let (goesOn, counts, frames) ← deliverOne queue consumers taken now
    let delivered := if counts then delivered + 1 else delivered
    if goesOn && delivered < maxDeliveriesPerPass then
      return frames ++ (← deliverQueue queue consumers now answers delivered)
    else return frames

/-- The consumers are those of the snapshot, looked at when the queue lists any. -/
def deliverRound (queue : String) (answers : List Bool) (now : Instant) :
    Act env (List Frame) := do
  match ← look fun s => s.queues.get? queue with
  | none => return []
  | some q =>
    if q.messages.isEmpty || q.consumerTags.keys.isEmpty || q.activeConsumers.isEmpty then return []
    else deliverQueue queue q.activeConsumers now answers 0

end
end RocketmqBroker
