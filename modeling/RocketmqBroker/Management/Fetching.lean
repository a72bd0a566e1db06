import RocketmqBroker.Lib.Cycling
import RocketmqBroker.Delivery.Requests
import RocketmqBroker.Queue.PriorityOrder
import RocketmqBroker.Storage.Recovered

/-!
Reading a queue through the management API. A message that is to be kept is put back behind
the others of its priority, before the next one is taken; so the messages of the highest
priority are turned round, and those below are never read.
-/
namespace RocketmqBroker
open Run.Program StableList

section
variable (env : Env) (wal : SegmentCoordinator)

/-- One turn of the loop of `get_messages`, with the message and how many are left. -/
def fetchTurn (requeue : Bool) (messages : PriorityQueue) :
    List (Message × Nat) × PriorityQueue :=
  match messages.popFront with
  | none => ([], messages)
  | some (qm, rest) =>
    match qm.resolve env.crc32 wal with
    | .error _ => ([], rest)
    | .ok m => ([(m, rest.len)], if requeue then rest.pushBack (.full m) else rest)

def fetch (requeue : Bool) : Nat → PriorityQueue → List (Message × Nat) × PriorityQueue
  | 0, messages => ([], messages)
  | count + 1, messages =>
    let first := fetchTurn env wal requeue messages
    let later := fetch requeue count first.2
    (first.1 ++ later.1, later.2)

/-- `MessagePayload`. -/
def payloadOf (fetched : Message × Nat) : Bytes × Nat := (fetched.1.body, fetched.2)

namespace QueueMessage

def view (qm : QueueMessage) : QueueMessage :=
  match qm.resolve env.crc32 wal with
  | .ok m => .full m
  | .error _ => qm

def full? : QueueMessage → Option Message
  | full m => some m
  | ref _ => none

end QueueMessage

def PriorityQueue.views (messages : PriorityQueue) : List QueueMessage :=
  messages.ready.map (QueueMessage.view env wal)

/-- The first messages are read, as many as asked for or as there are, and the queue holds
    what it held, in the same order. -/
def FetchedInPlace (count : Nat) (messages : PriorityQueue) : Prop :=
  let fetched := fetch env wal true (min count messages.len) messages
  fetched.1.map (fun read => .full read.1) =
    (messages.views env wal).take (min count messages.len) ∧
  fetched.2.views env wal = messages.views env wal

def FullRound (count : Nat) (messages : PriorityQueue) : Prop :=
  (∀ qm ∈ messages.ready.take count, (qm.resolve env.crc32 wal).toOption.isSome = true) ∧
  min count messages.len ≤ (leaders rank (messages.views env wal)).length ∧
  (leaders rank (messages.views env wal)).rotate (min count messages.len) =
    leaders rank (messages.views env wal)

instance (count : Nat) (messages : PriorityQueue) :
    Decidable (FetchedInPlace env wal count messages) := inferInstanceAs (Decidable (_ ∧ _))

instance (count : Nat) (messages : PriorityQueue) :
    Decidable (FullRound env wal count messages) := inferInstanceAs (Decidable (_ ∧ _ ∧ _))

end

section
variable {env : Env} {wal : SegmentCoordinator} {messages : PriorityQueue} {qm : QueueMessage}

theorem view_full (m : Message) : QueueMessage.view env wal (.full m) = .full m := rfl

theorem rank_view (qm : QueueMessage) : rank (qm.view env wal) = rank qm := by
  unfold QueueMessage.view
  split
  · rename_i m read
    exact congrArg UInt8.toNat (QueueMessage.resolve_standing read).1
  · rfl

theorem rank_full? {m : Message} (read : qm.full? = some m) : m.priority.toNat = rank qm := by
  cases qm with
  | full m' =>
    obtain rfl := Option.some.inj read
    rfl
  | ref r => cases read

theorem full?_eq_some_iff {m : Message} : qm.full? = some m ↔ qm = .full m := by
  cases qm with
  | full m' => exact ⟨fun read => congrArg _ (Option.some.inj read), fun same => by cases same; rfl⟩
  | ref r => exact ⟨nofun, nofun⟩

theorem map_full_eq_iff {ms : List Message} {qms : List QueueMessage} :
    ms.map .full = qms ↔ ms.map some = qms.map QueueMessage.full? := by
  induction ms generalizing qms with
  | nil => cases qms <;> simp
  | cons m ms ih =>
    cases qms with
    | nil => simp
    | cons qm qms =>
      rw [List.map_cons, List.map_cons, List.map_cons, List.cons.injEq, List.cons.injEq, ih,
        eq_comm (b := qm), eq_comm (b := qm.full?), full?_eq_some_iff]

theorem full?_view_error {e : IoError} (unread : qm.resolve env.crc32 wal = .error e) :
    (qm.view env wal).full? = none := by
  unfold QueueMessage.view
  rw [unread]
  cases qm with
  | full m => cases unread
  | ref r => rfl

theorem full?_view_isSome (qm : QueueMessage) :
    (qm.view env wal).full?.isSome = (qm.resolve env.crc32 wal).toOption.isSome := by
  cases read : qm.resolve env.crc32 wal with
  | error e =>
    rw [full?_view_error read]
    rfl
  | ok m =>
    unfold QueueMessage.view
    rw [read]
    rfl

theorem views_descending (messages : PriorityQueue) :
    Descending rank (messages.views env wal) := by
  refine List.pairwise_map.mpr (messages.ready_descending.imp fun less => ?_)
  rw [rank_view, rank_view]
  exact less

theorem views_length (messages : PriorityQueue) :
    (messages.views env wal).length = messages.len := by
  rw [PriorityQueue.views, List.length_map, PriorityQueue.len_eq_length]

theorem fetchTurn_views (messages : PriorityQueue) :
    ((fetchTurn env wal true messages).1.map Prod.fst,
      (fetchTurn env wal true messages).2.views env wal) =
      takeTurn rank QueueMessage.full? (messages.views env wal) := by
  unfold fetchTurn
  cases popped : messages.popFront with
  | none =>
    have none_ready := PriorityQueue.ready_eq_nil (PriorityQueue.popFront_none popped)
    have none_seen : messages.views env wal = [] := congrArg (List.map _) none_ready
    dsimp only
    rw [none_seen]
    rfl
  | some front =>
    obtain ⟨qm, rest⟩ := front
    have seen : messages.views env wal = qm.view env wal :: rest.views env wal :=
      congrArg (List.map _) (PriorityQueue.ready_popFront popped)
    dsimp only
    rw [seen, takeTurn]
    cases read : qm.resolve env.crc32 wal with
    | error e =>
      rw [full?_view_error read]
      rfl
    | ok m =>
      have whole : qm.view env wal = .full m := by
        unfold QueueMessage.view
        rw [read]
      have behind : (rest.pushBack (.full m)).views env wal =
          insertBack rank (.full m) (rest.views env wal) := by
        rw [PriorityQueue.views, PriorityQueue.ready_pushBack_eq, ← insertBack_map rank_view,
          view_full]
        rfl
      rw [whole]
      exact congrArg ([m], ·) behind

theorem fetch_views (count : Nat) (messages : PriorityQueue) :
    ((fetch env wal true count messages).1.map Prod.fst,
      (fetch env wal true count messages).2.views env wal) =
      takeTurns rank QueueMessage.full? count (messages.views env wal) := by
  induction count generalizing messages with
  | zero => rfl
  | succ count ih =>
    have turn := @fetchTurn_views env wal messages
    have later := ih (fetchTurn env wal true messages).2
    rw [takeTurns, ← turn]
    dsimp only
    rw [← later, fetch, List.map_append]

theorem fetchedInPlace_iff (count : Nat) (messages : PriorityQueue) :
    FetchedInPlace env wal count messages ↔ FullRound env wal count messages := by
  have turns := @fetch_views env wal (min count messages.len) messages
  have in_place : FetchedInPlace env wal count messages ↔ ReadInPlace rank QueueMessage.full?
      (min count messages.len) (messages.views env wal) := by
    unfold FetchedInPlace ReadInPlace
    rw [← turns]
    dsimp only
    rw [← map_full_eq_iff, List.map_map]
    rfl
  have within : min count messages.len ≤ (messages.views env wal).length := by
    rw [views_length]
    exact Nat.min_le_right _ _
  have taken : (messages.views env wal).take (min count messages.len) =
      (messages.ready.take count).map (QueueMessage.view env wal) := by
    rw [← @views_length env wal messages, ← List.take_eq_take_min, PriorityQueue.views,
      List.map_take]
  rw [in_place, readInPlace_iff (fun qm m => rank_full?) (views_descending messages) within,
    taken, List.forall_mem_map]
  simp only [full?_view_isSome]
  rfl

/-- Where no message of the highest priority is there twice, either none is taken or all of
    them are, and no other. -/
theorem fullRound_iff_of_distinct {count : Nat}
    (distinct : (leaders rank (messages.views env wal)).Nodup) :
    FullRound env wal count messages ↔
      (∀ qm ∈ messages.ready.take count, (qm.resolve env.crc32 wal).toOption.isSome = true) ∧
      (min count messages.len = 0 ∨
        min count messages.len = (leaders rank (messages.views env wal)).length) := by
  refine and_congr_right fun _ => ?_
  constructor
  · rintro ⟨few, round⟩
    exact (rotate_leaders_iff distinct few).mp round
  · intro whole
    have few : min count messages.len ≤ (leaders rank (messages.views env wal)).length := by
      omega
    exact ⟨few, (rotate_leaders_iff distinct few).mpr whole⟩

variable {s : BrokerState} {queue : String} {q : QueueState}

theorem getMessage_turn (here : s.queues.get? queue = some q) (requeue : Bool) :
    (getMessage queue requeue : Act env (List (Bytes × Nat))).result s =
      (fetchTurn env s.wal requeue q.messages).1.map payloadOf ∧
    ((getMessage queue requeue : Act env (List (Bytes × Nat))).final s).queues.get? queue =
      some { q with messages := (fetchTurn env s.wal requeue q.messages).2 } ∧
    ((getMessage queue requeue : Act env (List (Bytes × Nat))).final s).wal = s.wal := by
  have front : (s.queues.get? queue).bind (·.messages.popFront) = q.messages.popFront := by
    rw [here, Option.bind_some]
  unfold getMessage fetchTurn
  rw [result_bind, final_bind, result_look, final_look, front]
  cases popped : q.messages.popFront with
  | none => exact ⟨rfl, here, rfl⟩
  | some front =>
    obtain ⟨qm, rest⟩ := front
    dsimp only
    rw [result_bind, final_bind, result_look, final_look]
    have step (fate : Fate) : (exec env s (.pop queue fate)).queues.get? queue =
        some (q.popTo env s.wal fate) := get?_modifyQueue_of here _
    cases read : qm.resolve env.crc32 s.wal with
    | error e =>
      refine ⟨rfl, (step .drop).trans ?_, rfl⟩
      unfold QueueState.popTo
      rw [popped]
    | ok m =>
      refine ⟨rfl, (step _).trans ?_, rfl⟩
      unfold QueueState.popTo
      rw [popped]
      cases requeue with
      | false => rfl
      | true =>
        dsimp only
        rw [read]
        rfl

theorem getMessages_turns (here : s.queues.get? queue = some q) (requeue : Bool)
    (turns : List Nat) :
    ((turns.mapM fun _ => (getMessage queue requeue : Act env (List (Bytes × Nat)))).result
      s).flatten = (fetch env s.wal requeue turns.length q.messages).1.map payloadOf ∧
    ((turns.mapM fun _ => (getMessage queue requeue : Act env (List (Bytes × Nat)))).final
      s).queues.get? queue =
      some { q with messages := (fetch env s.wal requeue turns.length q.messages).2 } := by
  induction turns generalizing s q with
  | nil => exact ⟨rfl, here⟩
  | cons turn turns ih =>
    obtain ⟨first, left, wal⟩ := @getMessage_turn env s queue q here requeue
    obtain ⟨later, last⟩ := ih left
    rw [wal] at later last
    rw [List.mapM_cons, result_bind, final_bind, result_bind, final_bind, List.length_cons, fetch,
      List.map_append, ← first, ← later]
    exact ⟨rfl, last⟩

/-- What the call answers and leaves of the queue, and when that is what it is meant to. -/
theorem get_messages_in_place_iff (env : Env) {s : BrokerState} {queue : String} {q : QueueState}
    (here : s.queues.get? queue = some q) (count : Nat) :
    answer env s (.getMessages queue count "ack_requeue_true") = [.payloads
      ((fetch env s.wal true (min count q.messages.len) q.messages).1.map payloadOf)] ∧
    (served env s (.getMessages queue count "ack_requeue_true")).queues.get? queue =
      some { q with
        messages := (fetch env s.wal true (min count q.messages.len) q.messages).2 } ∧
    (FetchedInPlace env s.wal count q.messages ↔ FullRound env s.wal count q.messages) ∧
    ((leaders rank (q.messages.views env s.wal)).Nodup →
      (FullRound env s.wal count q.messages ↔
        (∀ qm ∈ q.messages.ready.take count,
          (qm.resolve env.crc32 s.wal).toOption.isSome = true) ∧
        (min count q.messages.len = 0 ∨ min count q.messages.len =
          (leaders rank (q.messages.views env s.wal)).length))) := by
  have all := @getMessages_turns env s queue q here true (List.range (min count q.messages.len))
  rw [List.length_range] at all
  obtain ⟨results, left⟩ := all
  have mode : ("ack_requeue_true" == "ack_requeue_true") = true := rfl
  refine ⟨?_, ?_, fetchedInPlace_iff count q.messages, fullRound_iff_of_distinct⟩
  · unfold answer handle getMessages
    rw [result_bind, result_look, final_look, here, mode]
    dsimp only
    rw [result_bind, ← results]
    rfl
  · unfold served handle getMessages
    rw [final_bind, result_look, final_look, here, mode]
    dsimp only
    rw [final_bind, ← left]
    rfl

end

def twoReady : BrokerState := reached (plainEnv 64 1) guestOnly none
  (session "q" ++ [publishTo "q" false [1], publishTo "q" false [2]])

theorem get_messages_in_place_both : ∃ q, twoReady.queues.get? "q" = some q ∧
    FetchedInPlace (plainEnv 64 1) twoReady.wal 2 q.messages := by
  have round : (twoReady.queues.get? "q").any (fun q =>
      decide (FullRound (plainEnv 64 1) twoReady.wal 2 q.messages)) = true := by decide +kernel
  obtain ⟨q, here, all⟩ := (Option.any_eq_true _ _).mp round
  exact ⟨q, here, (get_messages_in_place_iff (plainEnv 64 1) here 2).2.2.1.mpr
    (of_decide_eq_true all)⟩

/-- The first of two messages is read, and then it is the second one. -/
theorem get_messages_turned : ¬ (∀ q, twoReady.queues.get? "q" = some q →
      FetchedInPlace (plainEnv 64 1) twoReady.wal 1 q.messages) ∧
    (twoReady.queues.get? "q").map (·.messages.ready.map QueueMessage.id) = some [1, 2] ∧
    ((served (plainEnv 64 1) twoReady (.getMessages "q" 1 "ack_requeue_true")).queues.get?
      "q").map (·.messages.ready.map QueueMessage.id) = some [2, 1] := by
  refine ⟨fun in_place => ?_, by decide +kernel, by decide +kernel⟩
  have moved : (twoReady.queues.get? "q").any (fun q =>
      !decide (FetchedInPlace (plainEnv 64 1) twoReady.wal 1 q.messages)) = true := by
    decide +kernel
  obtain ⟨q, here, elsewhere⟩ := (Option.any_eq_true _ _).mp moved
  rw [decide_eq_true (in_place q here)] at elsewhere
  cases elsewhere

end RocketmqBroker
