import RocketmqBroker.Delivery.Rounds
import RocketmqBroker.Lib.RoundRobin
import RocketmqBroker.Publishing.ShortNames
import RocketmqBroker.Queue.PriorityOrder

/-!
The turns of deliver_queue with the panics of the encoders, and what each does to the queue and
the channels.
-/
namespace RocketmqBroker
open Run.Program
open RoundRobin

section
variable {env : Env}

/-- `deliverOne` with its panic: the frames are encoded behind the pop and ahead of the send, so
    that the message is lost with the task. -/
def deliverTurn (queue : String) (consumers : List Consumer) (taken : Bool) (now : Instant) :
    Act env (Option (Bool × Bool × List Frame)) := do
  match ← look fun s => (s.queues.get? queue).bind (·.messages.peekFront) with
  | none => return some (false, false, [])
  | some qm =>
    match ← nextReadyConsumer queue consumers with
    | none => return some (false, false, [])
    | some c =>
      match ← look fun s => qm.resolve env.crc32 s.wal with
      | .error _ =>
        perform (.pop queue .drop)
        return some (true, false, [])
      | .ok m =>
        if (encodeDeliveryFrames c.channel c.tag m).isNone then
          perform (.pop queue .drop)
          return none
        else
          let sent ← look fun s => s.connections.contains c.connId && taken
          if !sent then
            perform (.pop queue .front)
            return some (false, false, [])
          else
            if c.noAck then perform (.pop queue .drop) else trackInflight queue c m.id now
            return some (true, true, [.basicDeliver c.connId c.channel c.tag m])

/-- `deliverQueue` with the panic: what was sent, and whether the call panicked. -/
def deliverPass (queue : String) (consumers : List Consumer) (now : Instant) :
    List Bool → Nat → Act env (List Frame × Bool)
  | [], _ => return ([], false)
  | taken :: answers, delivered => do
    match ← deliverTurn queue consumers taken now with
    | none => return ([], true)
    | some (goesOn, counts, frames) =>
      let delivered := if counts then delivered + 1 else delivered
      if goesOn && delivered < maxDeliveriesPerPass then
        let (later, panicked) ← deliverPass queue consumers now answers delivered
        return (frames ++ later, panicked)
      else return (frames, false)

end

def ChannelState.owing (n : Nat) (ch : ChannelState) : ChannelState :=
  { ch with unackedCount := ch.unackedCount + UInt16.ofNat n }

def FitsDelivery (c : Consumer) (names : String × String) : Prop :=
  FitsShortstr c.tag ∧ ShortNames names

instance (c : Consumer) (names : String × String) : Decidable (FitsDelivery c names) :=
  inferInstanceAs (Decidable (_ ∧ _))

section
variable {env : Env} {s t : BrokerState} {queue : String} {q : QueueState}

theorem hasPrefetchCapacity_eq (connId : UInt64) (channel : UInt16) :
    hasPrefetchCapacity s connId channel =
      (s.channel? connId channel).all ChannelState.canDeliver := by
  unfold hasPrefetchCapacity BrokerState.channel?
  cases s.connState.get? connId with
  | none => rfl
  | some cs =>
    simp only [Option.bind_eq_bind, Option.bind_some]
    cases cs.channels.get? channel <;> rfl

theorem encodeDeliveryFrames_isSome_iff {c : Consumer} {m : Message} {channel : UInt16} :
    (encodeDeliveryFrames channel c.tag m).isSome = true ↔ FitsDelivery c m.names := by
  refine ⟨fun written => ?_, fun fits => encodeDeliveryFrames_isSome fits.1 fits.2⟩
  have built : (buildDeliverArgs c.tag m.id m.redelivered m.exchange m.routingKey).2 = true := by
    unfold encodeDeliveryFrames at written
    rw [← Written.unwrap_isSome]
    cases args : (buildDeliverArgs c.tag m.id m.redelivered m.exchange m.routingKey).unwrap with
    | none =>
      rw [args] at written
      contradiction
    | some args => rfl
  unfold buildDeliverArgs at built
  rw [andThen_snd, andThen_snd, andThen_snd, Bool.and_true, Bool.and_eq_true, Bool.and_eq_true,
    writeShortstr_ok_iff, writeShortstr_ok_iff, writeShortstr_ok_iff] at built
  exact ⟨built.1.1, built.1.2, built.2⟩

theorem readyConsumer_eq (consumers : List Consumer) (pointer turns : Nat) :
    readyConsumer s consumers pointer turns =
      pick (fun c => hasPrefetchCapacity s c.connId c.channel) consumers pointer turns := by
  induction turns generalizing pointer with
  | zero => rfl
  | succ turns ih =>
    unfold readyConsumer pick
    cases consumers[pointer % consumers.length]? with
    | none => rfl
    | some c =>
      dsimp only
      rw [ih]

theorem front_of_ready {p : PriorityQueue} {qm : QueueMessage} {rest : List QueueMessage}
    (ready : p.ready = qm :: rest) :
    p.peekFront = some qm ∧ ∃ left, p.popFront = some (qm, left) ∧ left.ready = rest := by
  have peeked : p.peekFront = some qm := by
    rw [PriorityQueue.peekFront_ready, ready]
    rfl
  refine ⟨peeked, ?_⟩
  obtain ⟨⟨_, left⟩, popped, rfl⟩ := Option.map_eq_some_iff.mp peeked
  have whole := PriorityQueue.ready_popFront popped
  rw [ready] at whole
  exact ⟨left, popped, (List.cons.inj whole).2.symm⟩

theorem ready_pushFront_popped {p left : PriorityQueue} {qm : QueueMessage} {m : Message}
    (popped : p.popFront = some (qm, left)) (same : m.priority = qm.priority) :
    (left.pushFront (.full m)).ready = .full m :: left.ready := by
  have sorted := p.ready_descending
  rw [PriorityQueue.ready_popFront popped] at sorted
  refine PriorityQueue.ready_pushFront_first fun qm' member => ?_
  have below := (List.pairwise_cons.mp sorted).1 qm' member
  unfold rank at below ⊢
  change _ ≤ m.priority.toNat
  rw [same]
  exact below

theorem popTo_of_ready {qm : QueueMessage} {rest : List QueueMessage} {m : Message}
    {wal : SegmentCoordinator} (ready : q.messages.ready = qm :: rest)
    (read : qm.resolve env.crc32 wal = .ok m) :
    ∃ left back : PriorityQueue, left.ready = rest ∧ back.ready = .full m :: rest ∧
      q.popTo env wal .drop = { q with messages := left } ∧
      q.popTo env wal .front = { q with messages := back } ∧
      q.popTo env wal .hold =
        { q with messages := left, inflight := q.inflight.insert m.id m } := by
  obtain ⟨-, left, popped, rfl⟩ := front_of_ready ready
  have same := (QueueMessage.resolve_standing read).1
  refine ⟨left, left.pushFront (.full m), rfl, ready_pushFront_popped popped same, ?_, ?_, ?_⟩
  · simp only [QueueState.popTo, popped]
  · simp only [QueueState.popTo, popped, read]
  · simp only [QueueState.popTo, popped, read]

/-- A delivery is listed as one of its connection, under the name the queue has for itself. -/
def BrokerState.listed (s : BrokerState) (queue : String) (connId tag : UInt64) : BrokerState :=
  let name := ((s.queues.get? queue).map (·.nameArc)).getD ""
  { s with
    deliveryIndex := s.deliveryIndex.insert tag name
    connDeliveries := s.connDeliveries.insert connId
      ((s.connDeliveries.get? connId).getD [] ++ [(name, tag)]) }

def BrokerState.tracked (env : Env) (s : BrokerState) (queue : String) (c : Consumer) (tag : UInt64)
    (now : Instant) : BrokerState :=
  let held := (s.modifyQueue queue (·.popTo env s.wal .hold)).listed queue c.connId tag
  (held.modifyQueue queue fun q => { q with lastActivity := now }).modifyChannel c.connId c.channel
    fun ch => { ch with unackedCount := ch.unackedCount + 1 }

theorem tracked_at {q' : QueueState} (found : t.queues.get? queue = some q') (c : Consumer)
    (tag : UInt64) (now : Instant) :
    (t.tracked env queue c tag now).queues.get? queue =
      some { q'.popTo env t.wal .hold with lastActivity := now } ∧
    ∀ connId channel, (t.tracked env queue c tag now).channel? connId channel =
      if connId = c.connId ∧ channel = c.channel then
        (t.channel? c.connId c.channel).map (·.owing 1)
      else t.channel? connId channel := by
  have popped := get?_modifyQueue_of found (·.popTo env t.wal .hold)
  constructor
  · unfold BrokerState.tracked
    dsimp only
    have active := get?_modifyQueue ((t.modifyQueue queue (·.popTo env t.wal .hold)).listed queue
      c.connId tag) queue queue fun q => { q with lastActivity := now }
    rw [if_pos rfl] at active
    exact active.trans (congrArg (Option.map _) popped)
  · intro connId channel
    exact channel?_modifyChannel _ c.connId connId c.channel channel _

def BrokerState.pointed (s : BrokerState) (queue : String) (pointer : Nat) : BrokerState :=
  s.modifyQueue queue fun q => { q with nextListener := pointer }

theorem BrokerState.pointed_at {q' : QueueState} (found : t.queues.get? queue = some q')
    (pointer : Nat) : (t.pointed queue pointer).queues.get? queue =
      some { q' with nextListener := pointer } := get?_modifyQueue_of found _

theorem nextReadyConsumer_at {q' : QueueState} (found : t.queues.get? queue = some q')
    (consumers : List Consumer) :
    let picked := readyConsumer t consumers q'.nextListener consumers.length
    (nextReadyConsumer queue consumers : Act env (Option Consumer)).result t = picked.2 ∧
    (nextReadyConsumer queue consumers : Act env (Option Consumer)).final t =
      t.pointed queue picked.1 := by
  have start : ((t.queues.get? queue).map (·.nextListener)).getD 0 = q'.nextListener := by
    rw [found]
    rfl
  rw [← start]
  exact ⟨rfl, rfl⟩

def attempt (queue : String) (c : Consumer) (m : Message) (taken : Bool) (now : Instant) :
    Act env (Option (Bool × Bool × List Frame)) :=
  if (encodeDeliveryFrames c.channel c.tag m).isNone then do
    perform (.pop queue .drop)
    return none
  else do
    let sent ← look fun s => s.connections.contains c.connId && taken
    if !sent then
      perform (.pop queue .front)
      return some (false, false, [])
    else
      if c.noAck then perform (.pop queue .drop) else trackInflight queue c m.id now
      return some (true, true, [.basicDeliver c.connId c.channel c.tag m])

section
variable {q' : QueueState} {qm : QueueMessage} {m : Message} {rest : List QueueMessage}
  {consumers : List Consumer} {taken : Bool} {now : Instant}

theorem deliverTurn_empty (found : t.queues.get? queue = some q')
    (empty : q'.messages.ready = []) :
    (deliverTurn queue consumers taken now : Act env _).result t = some (false, false, []) ∧
      (deliverTurn queue consumers taken now : Act env _).final t = t := by
  have nothing : (t.queues.get? queue).bind (·.messages.peekFront) = none := by
    rw [found, Option.bind_some, PriorityQueue.peekFront_ready, empty]
    rfl
  unfold deliverTurn
  rw [result_bind, final_bind, result_look, final_look, nothing]
  exact ⟨rfl, rfl⟩

theorem deliverTurn_ready (found : t.queues.get? queue = some q')
    (ready : q'.messages.ready = qm :: rest) (read : qm.resolve env.crc32 t.wal = .ok m)
    {next : Nat} {picked : Option Consumer}
    (picks : readyConsumer t consumers q'.nextListener consumers.length = (next, picked)) :
    let goesOn : Act env (Option (Bool × Bool × List Frame)) :=
      picked.elim (return some (false, false, [])) (attempt queue · m taken now)
    (deliverTurn queue consumers taken now : Act env _).result t =
        goesOn.result (t.pointed queue next) ∧
      (deliverTurn queue consumers taken now : Act env _).final t =
        goesOn.final (t.pointed queue next) := by
  have up : (t.queues.get? queue).bind (·.messages.peekFront) = some qm := by
    rw [found, Option.bind_some]
    exact (front_of_ready ready).1
  have next_is := @nextReadyConsumer_at env t queue q' found consumers
  rw [picks] at next_is
  unfold deliverTurn
  rw [result_bind, final_bind, result_look, final_look, up]
  dsimp only
  rw [result_bind, final_bind, next_is.1, next_is.2]
  cases picked with
  | none => exact ⟨rfl, rfl⟩
  | some c =>
    dsimp only
    rw [result_bind, final_bind, result_look, final_look]
    have still : qm.resolve env.crc32 (t.pointed queue next).wal = .ok m := read
    rw [still]
    exact ⟨rfl, rfl⟩

theorem attempt_panics {c : Consumer} (long : encodeDeliveryFrames c.channel c.tag m = none) :
    (attempt queue c m taken now : Act env _).result t = none ∧
      (attempt queue c m taken now : Act env _).final t =
        t.modifyQueue queue (·.popTo env t.wal .drop) := by
  unfold attempt
  rw [long]
  exact ⟨rfl, rfl⟩

section
variable {c : Consumer} (short : (encodeDeliveryFrames c.channel c.tag m).isSome = true)
include short

theorem attempt_fails (failed : (t.connections.contains c.connId && taken) = false) :
    (attempt queue c m taken now : Act env _).result t = some (false, false, []) ∧
      (attempt queue c m taken now : Act env _).final t =
        t.modifyQueue queue (·.popTo env t.wal .front) := by
  have written : (encodeDeliveryFrames c.channel c.tag m).isNone = false := by
    rw [Option.isNone_eq_false_iff]
    exact short
  unfold attempt
  rw [written]
  simp only [Bool.false_eq_true, if_false]
  rw [result_bind, final_bind, result_look, final_look, failed]
  exact ⟨rfl, rfl⟩

theorem attempt_sends (sent : (t.connections.contains c.connId && taken) = true) :
    (attempt queue c m taken now : Act env _).result t =
        some (true, true, [.basicDeliver c.connId c.channel c.tag m]) ∧
      (attempt queue c m taken now : Act env _).final t =
        if c.noAck then t.modifyQueue queue (·.popTo env t.wal .drop)
        else t.tracked env queue c m.id now := by
  have written : (encodeDeliveryFrames c.channel c.tag m).isNone = false := by
    rw [Option.isNone_eq_false_iff]
    exact short
  unfold attempt
  rw [written]
  simp only [Bool.false_eq_true, if_false]
  rw [result_bind, final_bind, result_look, final_look, sent]
  cases c.noAck <;> exact ⟨rfl, rfl⟩

end

end

def ReturnsAs {α : Type} (panicking : Act env (Option α)) (p : Act env α) : Prop :=
  ∀ t r, panicking.result t = some r → p.result t = r ∧ p.final t = panicking.final t

theorem returnsAs_return {α : Type} (a : α) :
    ReturnsAs (return some a : Act env (Option α)) (return a) :=
  fun _ _ same => ⟨Option.some.inj same, rfl⟩

theorem ReturnsAs.bind {α β : Type} (first : Act env β) {f : β → Act env (Option α)}
    {g : β → Act env α} (agree : ∀ b, ReturnsAs (f b) (g b)) :
    ReturnsAs (first >>= f) (first >>= g) := by
  intro t r same
  rw [result_bind] at same
  rw [result_bind, final_bind, final_bind]
  exact agree _ _ r same

/-- A turn that does not panic is a turn of the round. -/
theorem returnsAs_turn (queue : String) (consumers : List Consumer) (taken : Bool) (now : Instant) :
    ReturnsAs (deliverTurn queue consumers taken now : Act env _)
      (deliverOne queue consumers taken now) := by
  refine ReturnsAs.bind _ fun front => ?_
  cases front with
  | none => exact returnsAs_return _
  | some qm =>
    refine ReturnsAs.bind _ fun picked => ?_
    cases picked with
    | none => exact returnsAs_return _
    | some c =>
      refine ReturnsAs.bind _ fun read => ?_
      cases read with
      | error => exact ReturnsAs.bind _ fun _ => returnsAs_return _
      | ok m =>
        dsimp only
        split
        · exact fun _ _ panicked => by cases panicked
        · refine ReturnsAs.bind _ fun sent => ?_
          split
          · exact ReturnsAs.bind _ fun _ => returnsAs_return _
          · split <;> exact ReturnsAs.bind _ fun _ => returnsAs_return _

theorem deliverQueue_of_pass {consumers : List Consumer} {now : Instant} {answers : List Bool}
    {delivered : Nat}
    (returned :
      ((deliverPass queue consumers now answers delivered : Act env _).result t).2 = false) :
    (deliverQueue queue consumers now answers delivered : Act env _).result t =
        ((deliverPass queue consumers now answers delivered : Act env _).result t).1 ∧
      (deliverQueue queue consumers now answers delivered : Act env _).final t =
        (deliverPass queue consumers now answers delivered : Act env _).final t := by
  induction answers generalizing delivered t with
  | nil => exact ⟨rfl, rfl⟩
  | cons taken answers ih =>
    unfold deliverPass at returned ⊢
    unfold deliverQueue
    rw [result_bind] at returned
    rw [result_bind, result_bind, final_bind, final_bind]
    cases turn : (deliverTurn queue consumers taken now : Act env _).result t with
    | none =>
      rw [turn] at returned
      contradiction
    | some r =>
      obtain ⟨same, final⟩ := returnsAs_turn queue consumers taken now t r turn
      rw [turn] at returned
      rw [same, final]
      obtain ⟨goes_on, counts, frames⟩ := r
      dsimp only at returned ⊢
      generalize (if counts then delivered + 1 else delivered) = delivered' at *
      split at returned
      · rename_i more
        rw [if_pos more, if_pos more]
        obtain ⟨later, ends⟩ := ih returned
        rw [result_bind, result_bind, final_bind, final_bind, later, ends]
        exact ⟨rfl, rfl⟩
      · rename_i enough
        rw [if_neg enough, if_neg enough]
        exact ⟨rfl, rfl⟩

end

end RocketmqBroker
