import RocketmqBroker.Lib.FinMap

/-!
Exchanges and their bindings (routing/exchange.rs): the four kinds, adding and
removing bindings, and the queues a message is routed to, in binding order.
-/
namespace RocketmqBroker

inductive ExchangeType where
  | direct
  | fanout
  | topic
  | headers
  deriving DecidableEq, Repr

namespace ExchangeType

def fromStr : String → Option ExchangeType
  | "direct" => some .direct
  | "fanout" => some .fanout
  | "topic" => some .topic
  | "headers" => some .headers
  | _ => none

def toByte : ExchangeType → UInt8
  | .direct => 0x00
  | .fanout => 0x01
  | .topic => 0x02
  | .headers => 0x03

def ofByte (byte : UInt8) : Option ExchangeType :=
  if byte = 0x00 then some .direct
  else if byte = 0x01 then some .fanout
  else if byte = 0x02 then some .topic
  else if byte = 0x03 then some .headers
  else none

theorem ofByte_toByte (kind : ExchangeType) : ofByte kind.toByte = some kind := by
  cases kind <;> rfl

end ExchangeType

inductive HeadersMatch where
  | all (required : List (String × String))
  | any (required : List (String × String))
  deriving DecidableEq, Repr

structure Binding where
  queueName : String
  routingKey : String
  headersMatch : Option HeadersMatch
  deriving DecidableEq, Repr

structure Exchange where
  name : String
  kind : ExchangeType
  durable : Bool
  bindings : List Binding
  deriving DecidableEq, Repr

/-- One row of the two-row table: which prefixes of the key the pattern matches
    once this segment is added. The head of a row is the empty prefix. -/
def topicRow (segment : String) (prev : List Bool) (key : List String) : List Bool :=
  let rec go (left : Bool) : List Bool → List String → List Bool
    | before :: here :: prev, word :: key =>
      let now :=
        if segment = "#" then here || left
        else if segment = "*" then before
        else before && segment == word
      now :: go now (here :: prev) key
    | _, _ => []
  let first := segment = "#" && prev.headD false
  first :: go first prev key

/-- `str::split('.')`. -/
def words (s : String) : List String := (s.toList.splitOn '.').map String.ofList

def topicMatches (pattern routingKey : String) : Bool :=
  if pattern = routingKey then true
  else if pattern = "#" then true
  else
    let key := words routingKey
    let start := true :: List.replicate key.length false
    let last := (words pattern).foldl (fun prev segment => topicRow segment prev key) start
    last.getLastD false

namespace Exchange

def new (name : String) (kind : ExchangeType) (durable : Bool) : Exchange :=
  ⟨name, kind, durable, []⟩

def binds (ex : Exchange) (queue routingKey : String) : Bool :=
  ex.bindings.any fun b => b.queueName == queue && b.routingKey == routingKey

/-- A second binding of the same queue and key is not added. -/
def addBinding (ex : Exchange) (b : Binding) : Exchange :=
  if ex.binds b.queueName b.routingKey then ex else { ex with bindings := ex.bindings ++ [b] }

def removeBinding (ex : Exchange) (queue routingKey : String) : Exchange :=
  { ex with bindings := ex.bindings.filter fun b =>
      !(b.queueName == queue && b.routingKey == routingKey) }

def headersMatched (headers : List (String × String)) : Option HeadersMatch → Bool
  | some (.all required) => required.all fun (k, v) => headers.lookup k == some v
  | some (.any required) => required.any fun (k, v) => headers.lookup k == some v
  | none => false

def routeEach (ex : Exchange) (routingKey : String) (headers : List (String × String)) :
    List String :=
  (ex.bindings.filter fun b =>
    match ex.kind with
    | .direct => b.routingKey == routingKey
    | .fanout => true
    | .topic => topicMatches b.routingKey routingKey
    | .headers => headersMatched headers b.headersMatch).map Binding.queueName

@[simp] theorem addBinding_durable (ex : Exchange) (b : Binding) :
    (ex.addBinding b).durable = ex.durable := by
  unfold addBinding
  split <;> rfl

@[simp] theorem removeBinding_durable (ex : Exchange) (queue routingKey : String) :
    (ex.removeBinding queue routingKey).durable = ex.durable := rfl

theorem binds_iff {ex : Exchange} {queue routingKey : String} :
    ex.binds queue routingKey = true ↔
      ∃ b ∈ ex.bindings, b.queueName = queue ∧ b.routingKey = routingKey := by
  simp [binds]

theorem addBinding_binds (ex : Exchange) (b : Binding) (queue routingKey : String) :
    (ex.addBinding b).binds queue routingKey =
      (ex.binds queue routingKey || (b.queueName == queue && b.routingKey == routingKey)) := by
  unfold addBinding
  split
  · rename_i known
    cases same : (b.queueName == queue && b.routingKey == routingKey) with
    | false => simp
    | true =>
      simp only [Bool.and_eq_true, beq_iff_eq] at same
      simp [← same.1, ← same.2, known]
  · simp [binds]

theorem removeBinding_binds {ex : Exchange} {queue routingKey q k : String}
    (h : (ex.removeBinding queue routingKey).binds q k = true) : ex.binds q k = true := by
  obtain ⟨b, member, same⟩ := binds_iff.mp h
  exact binds_iff.mpr ⟨b, (List.mem_filter.mp member).1, same⟩

end Exchange

def createDefaultExchanges : FinMap String Exchange :=
  ((((∅ : FinMap String Exchange).insert "" (.new "" .direct true)).insert "amq.direct"
    (.new "amq.direct" .direct true)).insert "amq.fanout"
    (.new "amq.fanout" .fanout true)).insert "amq.topic"
    (.new "amq.topic" .topic true) |>.insert "amq.headers" (.new "amq.headers" .headers true)

def predeclared (name : String) : Bool := createDefaultExchanges.contains name

end RocketmqBroker
