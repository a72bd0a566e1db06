import RocketmqBroker.Handlers.Frame

/-!
The Exchange class (protocol/amqp/handlers/exchange.rs). Only a declaration is
logged; Exchange.Bind treats its destination as a queue.
-/
namespace RocketmqBroker

structure ExchangeDeclareArgs where
  name : String
  kind : String
  passive : Bool
  durable : Bool
  noWait : Bool
  deriving DecidableEq, Repr

def methodExchangeDeclare : Nat := 10
def methodExchangeDelete : Nat := 20

section
variable {env : Env}

/-- `none` for success, otherwise the error that was sent. -/
def declareActiveExchange (connId : UInt64) (args : ExchangeDeclareArgs) :
    Act env (Option (List Frame)) := do
  if "amq.".isPrefixOf args.name then
    return some (← sendChannelError accessRefused
      "ACCESS_REFUSED - exchange names starting with 'amq.' are reserved" classExchange
      methodExchangeDeclare)
  else if ← denied connId (·.configure) args.name then
    return some (← denyAccess classExchange methodExchangeDeclare)
  else
    match ExchangeType.fromStr args.kind with
    | none =>
      return some (← sendChannelError commandInvalid
        "COMMAND_INVALID - unsupported exchange type" classExchange methodExchangeDeclare)
    | some kind =>
      let isNew ← look fun s => !s.exchanges.contains args.name
      perform (.createExchange args.name kind args.durable (args.durable && isNew))
      return none

def exchangeDeclare (connId : UInt64) (args : ExchangeDeclareArgs) : Act env (List Frame) := do
  if args.passive then
    if ← look fun s => s.exchanges.contains args.name then
      return if args.noWait then [] else [.exchangeDeclareOk]
    else
      sendChannelError notFound "NOT_FOUND - no such exchange" classExchange methodExchangeDeclare
  else
    match ← declareActiveExchange connId args with
    | some frames => return frames
    | none => return if args.noWait then [] else [.exchangeDeclareOk]

def exchangeDelete (name : String) (noWait : Bool) : Act env (List Frame) := do
  if "amq.".isPrefixOf name then
    sendChannelError accessRefused "ACCESS_REFUSED - cannot delete default exchange" classExchange
      methodExchangeDelete
  else
    perform (.removeExchange name)
    return if noWait then [] else [.exchangeDeleteOk]

def exchangeBind (destination source routingKey : String) (noWait : Bool) :
    Act env (List Frame) := do
  perform (.bind source ⟨destination, routingKey, none⟩ false)
  return if noWait then [] else [.exchangeBindOk]

def exchangeUnbind (destination source routingKey : String) : Act env (List Frame) := do
  perform (.unbind source destination routingKey)
  return [.exchangeUnbindOk]

end
end RocketmqBroker
