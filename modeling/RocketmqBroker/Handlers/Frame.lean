import RocketmqBroker.Broker.Effect

/-!
What handlers send back, by content and not by bytes, and the checks they share
(protocol/amqp/method.rs, protocol/amqp/handlers/auth_check.rs).
-/
namespace RocketmqBroker

def classExchange : Nat := 40
def classQueue : Nat := 50
def classBasic : Nat := 60
def classTx : Nat := 90

def noRoute : Nat := 312
def accessRefused : Nat := 403
def notFound : Nat := 404
def resourceLocked : Nat := 405
def preconditionFailed : Nat := 406
def commandInvalid : Nat := 503

inductive Frame where
  | channelClose (code : Nat) (text : String) (classId methodId : Nat)
  | channelOpenOk
  | channelCloseOk
  | channelFlowOk (active : Bool)
  | exchangeDeclareOk
  | exchangeDeleteOk
  | exchangeBindOk
  | exchangeUnbindOk
  | queueDeclareOk (name : String) (messageCount consumerCount : Nat)
  | queueDeleteOk (messageCount : Nat)
  | queuePurgeOk (messageCount : Nat)
  | queueBindOk
  | queueUnbindOk
  | basicQosOk
  | basicConsumeOk (tag : String)
  | basicCancelOk (tag : String)
  | basicReturn (code : Nat) (text exchange routingKey : String) (properties body : Bytes)
  | basicDeliver (connId : UInt64) (channel : UInt16) (tag : String) (m : Message)
  | basicGetOk (tag : UInt64) (redelivered : Bool) (exchange routingKey : String)
      (messageCount : Nat) (body : Bytes)
  | basicGetEmpty
  | basicAck (tag : UInt64)
  | basicNack (tag : UInt64)
  | basicRecoverOk
  | txSelectOk
  | txCommitOk
  | txRollbackOk
  | confirmSelectOk
  | status (code : Nat)
  | messagesPurged (count : Nat)
  | payloads (messages : List (Bytes × Nat))
  | routed (queues : Nat)
  | replicateResponse (term msgId : UInt64) (success : Bool)
  deriving DecidableEq, Repr

/-- The frames of a channel error. A text that is no short string makes `build_channel_close`
    panic, and nothing is written. -/
def closeFrames (code : Nat) (text : String) (classId methodId : Nat) : List Frame :=
  if FitsShortstr text then [.channelClose code text classId methodId] else []

theorem closeFrames_fits {text : String} (fits : FitsShortstr text) (code classId methodId : Nat) :
    closeFrames code text classId methodId = [.channelClose code text classId methodId] :=
  if_pos fits

theorem mem_closeFrames {code classId methodId : Nat} {text : String} {f : Frame}
    (member : f ∈ closeFrames code text classId methodId) :
    f = .channelClose code text classId methodId := by
  unfold closeFrames at member
  split at member
  · exact List.mem_singleton.mp member
  · contradiction

/-- `len() as u32`. -/
def asU32 (n : Nat) : Nat := n % 2 ^ 32

open Run.Program

section
variable {env : Env}

def perform (e : Effect) : Act env Unit := Run.Program.perform e

def look {α : Type} (f : BrokerState → α) : Act env α := Run.Program.read f

@[simp] theorem result_look {α : Type} (f : BrokerState → α) (s : BrokerState) :
    (look f : Act env α).result s = f s := rfl

@[simp] theorem final_look {α : Type} (f : BrokerState → α) (s : BrokerState) :
    (look f : Act env α).final s = s := rfl

@[simp] theorem steps_look {α : Type} (f : BrokerState → α) (s : BrokerState) :
    (look f : Act env α).steps s = [] := rfl

@[simp] theorem final_performed (e : Effect) (s : BrokerState) :
    (perform e : Act env Unit).final s = exec env s e := rfl

def change (b : Bookkeeping) : Act env Unit := perform (.books b)

def sendChannelError (code : Nat) (text : String) (classId methodId : Nat) :
    Act env (List Frame) := return closeFrames code text classId methodId

def denyAccess (classId methodId : Nat) : Act env (List Frame) :=
  sendChannelError accessRefused "ACCESS_REFUSED - permission denied" classId methodId

def denied (connId : UInt64) (extractor : Permission → String) (resource : String) :
    Act env Bool := look fun s => !checkPermission env s connId extractor resource

/-- `with_channel`, for its effect. -/
def withChannel (connId : UInt64) (channel : UInt16) (f : ChannelState → ChannelState) :
    Act env Unit :=
  change { apply := fun s => s.modifyChannel connId channel f }

def withConnState (connId : UInt64) (f : ConnectionState → ConnectionState) : Act env Unit :=
  change { apply := fun s => s.modifyConn connId f }

end
end RocketmqBroker
