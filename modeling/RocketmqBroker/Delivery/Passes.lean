import RocketmqBroker.Delivery.Turns

/-!
One call of deliver_queue. The consumers have their turns by a schedule that depends on their
channels only: each message handed out to one that acknowledges takes a place on its channel.
-/
namespace RocketmqBroker
open Run.Program
open RoundRobin

def owed (turns : List Consumer) (connId : UInt64) (channel : UInt16) : Nat :=
  turns.countP fun d => !d.noAck && d.connId == connId && d.channel == channel

/-- The consumer's channel takes one more delivery behind these turns, or does not exist. -/
def BrokerState.hasRoom (s : BrokerState) (turns : List Consumer) (c : Consumer) : Bool :=
  (s.channel? c.connId c.channel).all fun ch =>
    (ch.owing (owed turns c.connId c.channel)).canDeliver

def turnAfter (s : BrokerState) (q : QueueState) (consumers : List Consumer) (i : Nat) :
    Option Consumer := turnAt s.hasRoom consumers q.nextListener i

def BrokerState.takes (s : BrokerState) (answers : List Bool) (i : Nat) (c : Consumer) : Prop :=
  s.connections.contains c.connId = true ∧ answers[i]? = some true

def ComesUp (s : BrokerState) (q : QueueState) (consumers : List Consumer) (answers : List Bool)
    (i : Nat) (c : Consumer) : Prop :=
  turnAfter s q consumers i = some c ∧
    ∀ j < i, ∀ d, turnAfter s q consumers j = some d → s.takes answers j d

/-- The first messages of the queue have gone to these consumers, one to each, and the others are
    ready as before. -/
structure Delivered (env : Env) (s : BrokerState) (queue : String) (q : QueueState)
    (consumers : List Consumer) (answers : List Bool) (cs : List Consumer) (ms : List Message)
    (t : BrokerState) : Prop where
  few : cs.length ≤ maxDeliveriesPerPass
  each : ms.length = cs.length
  first : ms.map .ok = (q.messages.ready.take cs.length).map (·.resolve env.crc32 s.wal)
  listed : ∀ c ∈ cs, c ∈ consumers
  room : ∀ i c, cs[i]? = some c → s.hasRoom (cs.take i) c = true
  counted : ∀ connId channel, t.channel? connId channel =
    (s.channel? connId channel).map (·.owing (owed cs connId channel))
  rest : ∃ q', t.queues.get? queue = some q' ∧
    q'.messages.ready.map (·.resolve env.crc32 s.wal) =
      (q.messages.ready.drop cs.length).map (·.resolve env.crc32 s.wal) ∧
    ∀ tag m, q'.inflight.get? tag = some m ↔
      q.inflight.get? tag = some m ∨ ∃ c, (c, m) ∈ cs.zip ms ∧ c.noAck = false ∧ m.id = tag
  stops : cs.length = maxDeliveriesPerPass ∨ cs.length = q.messages.ready.length ∨
    (∀ c ∈ consumers, hasPrefetchCapacity t c.connId c.channel = false) ∨
    ∃ c, turnAfter s q consumers cs.length = some c ∧ ¬ s.takes answers cs.length c

def deliveries (cs : List Consumer) (ms : List Message) : List Frame :=
  List.zipWith (fun c m => .basicDeliver c.connId c.channel c.tag m) cs ms

def AllFit (s : BrokerState) (q : QueueState) (consumers : List Consumer) (answers : List Bool) :
    Prop :=
  ∀ i < maxDeliveriesPerPass, ∀ (qm : QueueMessage) (c : Consumer),
    q.messages.ready[i]? = some qm → ComesUp s q consumers answers i c → FitsDelivery c qm.names

/-- The pass so far: these consumers have had their turns, and nothing has stopped it. -/
structure After (env : Env) (s : BrokerState) (queue : String) (q : QueueState)
    (consumers : List Consumer) (answers : List Bool) (cs : List Consumer) (ms : List Message)
    (pointer : Nat) (t : BrokerState) : Prop where
  turns : schedule s.hasRoom consumers q.nextListener cs.length = some (cs, pointer)
  each : ms.length = cs.length
  first : ms.map .ok = (q.messages.ready.take cs.length).map (·.resolve env.crc32 s.wal)
  took : ∀ i c, cs[i]? = some c → s.takes answers i c
  written : ∀ (i : Nat) (c : Consumer) (qm : QueueMessage), cs[i]? = some c →
    q.messages.ready[i]? = some qm → FitsDelivery c qm.names
  wal : t.wal = s.wal
  connections : t.connections = s.connections
  counted : ∀ connId channel, t.channel? connId channel =
    (s.channel? connId channel).map (·.owing (owed cs connId channel))
  rest : ∃ q', t.queues.get? queue = some q' ∧
    q'.messages.ready = q.messages.ready.drop cs.length ∧ q'.nextListener = pointer ∧
    ∀ tag m, q'.inflight.get? tag = some m ↔
      q.inflight.get? tag = some m ∨ ∃ c, (c, m) ∈ cs.zip ms ∧ c.noAck = false ∧ m.id = tag

section
variable {env : Env} {s t : BrokerState} {queue : String} {q : QueueState}

section
variable {consumers : List Consumer} {answers : List Bool} {cs : List Consumer}
  {ms : List Message} {pointer : Nat}

theorem owing_add (a b : Nat) (ch : ChannelState) : (ch.owing a).owing b = ch.owing (a + b) := by
  unfold ChannelState.owing
  dsimp only
  rw [UInt16.ofNat_add, UInt16.add_assoc]

theorem owed_concat (c : Consumer) (connId : UInt64) (channel : UInt16) :
    owed (cs ++ [c]) connId channel = owed cs connId channel + owed [c] connId channel :=
  List.countP_append

theorem owing_none (ch : Option ChannelState) : ch.map (·.owing 0) = ch := by
  cases ch with
  | none => rfl
  | some ch =>
    refine congrArg some ?_
    unfold ChannelState.owing
    dsimp only
    rw [show UInt16.ofNat 0 = 0 from rfl, UInt16.add_zero]

theorem owed_one {c : Consumer} (ack : c.noAck = false) (connId : UInt64) (channel : UInt16) :
    owed [c] connId channel = if connId = c.connId ∧ channel = c.channel then 1 else 0 := by
  unfold owed
  rw [List.countP_singleton, ack]
  simp only [Bool.not_false, Bool.true_and, Bool.and_eq_true, beq_iff_eq]
  exact if_congr (and_congr eq_comm eq_comm) rfl rfl

theorem after_start (found : s.queues.get? queue = some q) :
    After env s queue q consumers answers [] [] q.nextListener s where
  turns := rfl
  each := rfl
  first := rfl
  took := nofun
  written := nofun
  wal := rfl
  connections := rfl
  counted _ _ := (owing_none _).symm
  rest := ⟨q, found, rfl, rfl, fun tag m =>
    ⟨.inl, fun held => held.elim id fun ⟨_, member, _⟩ => by cases member⟩⟩

section
variable (after : After env s queue q consumers answers cs ms pointer t)
include after

theorem After.capacity (c : Consumer) :
    hasPrefetchCapacity t c.connId c.channel = s.hasRoom cs c := by
  rw [hasPrefetchCapacity_eq, after.counted, Option.all_map]
  rfl

theorem After.picks :
    readyConsumer t consumers pointer consumers.length =
      pick (s.hasRoom cs) consumers pointer consumers.length := by
  rw [readyConsumer_eq]
  congr 1
  exact funext after.capacity

theorem After.onTurn :
    turnAfter s q consumers cs.length =
      (pick (s.hasRoom cs) consumers pointer consumers.length).2 :=
  turnAt_of_schedule after.turns

theorem After.comesUp {next : Nat} {c : Consumer}
    (picks : pick (s.hasRoom cs) consumers pointer consumers.length = (next, some c)) :
    ComesUp s q consumers answers cs.length c := by
  refine ⟨by rw [after.onTurn, picks], fun j before d there => ?_⟩
  have earlier := List.getElem?_eq_getElem before
  obtain rfl := Option.some.inj ((schedule_turnAt after.turns earlier).symm.trans there)
  exact after.took j _ earlier

theorem After.sent_ready {i : Nat} {m : Message} (here : ms[i]? = some m) :
    ∃ qm, q.messages.ready[i]? = some qm ∧ qm.resolve env.crc32 s.wal = .ok m ∧ i < cs.length := by
  have bound : i < cs.length := after.each ▸ (List.getElem?_eq_some_iff.mp here).1
  have same := congrArg (·[i]?) after.first
  simp only [List.getElem?_map, here, Option.map_some, List.getElem?_take, if_pos bound] at same
  obtain ⟨qm, ready, read⟩ := Option.map_eq_some_iff.mp same.symm
  exact ⟨qm, ready, read, bound⟩

theorem After.fresh (distinct : q.readyIds.Nodup)
    (apart : ∀ id ∈ q.readyIds, q.inflight.get? id = none) {qm : QueueMessage}
    (next : q.messages.ready[cs.length]? = some qm) {m : Message} :
    ¬ (q.inflight.get? qm.id = some m ∨
      ∃ c, (c, m) ∈ cs.zip ms ∧ c.noAck = false ∧ m.id = qm.id) := by
  rintro (held | ⟨c, member, -, same⟩)
  · have none := apart qm.id (List.mem_map_of_mem (List.mem_of_getElem? next))
    rw [none] at held
    contradiction
  · obtain ⟨i, bound, here⟩ := List.mem_iff_getElem.mp (List.of_mem_zip member).2
    obtain ⟨qm', ready, read, early⟩ :=
      after.sent_ready (List.getElem?_eq_some_iff.mpr ⟨bound, here⟩)
    rw [QueueMessage.resolve_id read] at same
    have ids : q.readyIds[i]? = q.readyIds[cs.length]? := by
      unfold QueueState.readyIds
      rw [List.getElem?_map, List.getElem?_map, ready, next, Option.map_some, Option.map_some, same]
    have bounded : i < q.readyIds.length := by
      unfold QueueState.readyIds
      rw [List.length_map]
      exact (List.getElem?_eq_some_iff.mp ready).1
    have := (List.getElem?_inj bounded distinct).mp ids
    omega

theorem After.sent {c : Consumer} {qm : QueueMessage} {m : Message} {next : Nat} {u : BrokerState}
    (picked : pick (s.hasRoom cs) consumers pointer consumers.length = (next, some c))
    (here : q.messages.ready[cs.length]? = some qm) (read : qm.resolve env.crc32 s.wal = .ok m)
    (takes : s.takes answers cs.length c) (fits : FitsDelivery c qm.names)
    (wal : u.wal = t.wal) (connections : u.connections = t.connections)
    (counted : ∀ connId channel, u.channel? connId channel =
      (t.channel? connId channel).map (·.owing (owed [c] connId channel)))
    (rest : ∃ q', u.queues.get? queue = some q' ∧
      q'.messages.ready = q.messages.ready.drop (cs.length + 1) ∧ q'.nextListener = next ∧
      ∀ tag m', q'.inflight.get? tag = some m' ↔
        (q.inflight.get? tag = some m' ∨
          ∃ c', (c', m') ∈ cs.zip ms ∧ c'.noAck = false ∧ m'.id = tag) ∨
        c.noAck = false ∧ m'.id = tag ∧ m' = m) :
    After env s queue q consumers answers (cs ++ [c]) (ms ++ [m]) next u where
  turns := by
    rw [List.length_append]
    exact schedule_succ after.turns picked
  each := by
    rw [List.length_append, List.length_append, after.each]
    rfl
  first := by
    rw [List.length_append, List.length_singleton, List.take_add_one, here, List.map_append,
      List.map_append, after.first]
    exact congrArg (_ ++ [·]) read.symm
  took i d known := by
    cases concat_eq_some known with
    | inl old => exact after.took i d old.2
    | inr last =>
      obtain ⟨rfl, rfl⟩ := last
      exact takes
  written i d qm' known ready := by
    cases concat_eq_some known with
    | inl old => exact after.written i d qm' old.2 ready
    | inr last =>
      obtain ⟨rfl, rfl⟩ := last
      obtain rfl := Option.some.inj (here.symm.trans ready)
      exact fits
  wal := wal.trans after.wal
  connections := connections.trans after.connections
  counted connId channel := by
    rw [counted, after.counted, Option.map_map, owed_concat]
    congr 1
    exact funext fun ch => owing_add _ _ ch
  rest := by
    obtain ⟨q', found, ready, moved, inflight⟩ := rest
    refine ⟨q', found, ready.trans ?_, moved, fun tag m' => (inflight tag m').trans ?_⟩
    · rw [List.length_append, List.length_singleton]
    · rw [or_assoc]
      refine or_congr_right ?_
      rw [List.zip_append after.each.symm]
      constructor
      · rintro (⟨c', member, held⟩ | ⟨ack, same, rfl⟩)
        · exact ⟨c', List.mem_append_left _ member, held⟩
        · exact ⟨c, List.mem_append_right _ (List.mem_singleton_self _), ack, same⟩
      · rintro ⟨c', member, held⟩
        cases List.mem_append.mp member with
        | inl old => exact .inl ⟨c', old, held⟩
        | inr new =>
          obtain ⟨rfl, rfl⟩ := Prod.mk.inj (List.mem_singleton.mp new)
          exact .inr ⟨held.1, held.2, rfl⟩

theorem After.next {qm : QueueMessage} {m : Message}
    (here : q.messages.ready[cs.length]? = some qm) (read : qm.resolve env.crc32 s.wal = .ok m) :
    qm.resolve env.crc32 t.wal = .ok m ∧ ∃ q', t.queues.get? queue = some q' ∧
      q'.messages.ready = qm :: q.messages.ready.drop (cs.length + 1) ∧ q'.nextListener = pointer ∧
      ∀ tag m, q'.inflight.get? tag = some m ↔
        q.inflight.get? tag = some m ∨ ∃ c, (c, m) ∈ cs.zip ms ∧ c.noAck = false ∧ m.id = tag := by
  obtain ⟨q', found, ready, moved, inflight⟩ := after.rest
  obtain ⟨bound, same⟩ := List.getElem?_eq_some_iff.mp here
  rw [List.drop_eq_getElem_cons bound, same] at ready
  exact ⟨after.wal ▸ read, q', found, ready, moved, inflight⟩

theorem After.handed {c : Consumer} {qm : QueueMessage} {m : Message} {next : Nat}
    (distinct : q.readyIds.Nodup) (apart : ∀ id ∈ q.readyIds, q.inflight.get? id = none)
    (picked : pick (s.hasRoom cs) consumers pointer consumers.length = (next, some c))
    (here : q.messages.ready[cs.length]? = some qm) (read : qm.resolve env.crc32 s.wal = .ok m)
    (takes : s.takes answers cs.length c) (fits : FitsDelivery c qm.names) (now : Instant) :
    After env s queue q consumers answers (cs ++ [c]) (ms ++ [m]) next
      (if c.noAck then (t.pointed queue next).modifyQueue queue (·.popTo env t.wal .drop)
        else (t.pointed queue next).tracked env queue c m.id now) := by
  obtain ⟨read', q', found, ready, -, inflight⟩ := after.next here read
  have pointed := t.pointed_at found next
  obtain ⟨left, -, left_ready, -, dropped, -, held⟩ :=
    popTo_of_ready (q := { q' with nextListener := next }) ready read'
  cases ack : c.noAck with
  | true =>
    rw [if_pos rfl]
    refine after.sent picked here read takes fits rfl rfl (fun connId channel => ?_)
      ⟨_, get?_modifyQueue_of pointed _, ?_⟩
    · have none_owed : owed [c] connId channel = 0 := by
        unfold owed
        rw [List.countP_singleton, ack]
        rfl
      rw [none_owed]
      exact (owing_none _).symm
    · rw [dropped]
      refine ⟨left_ready, rfl, fun tag m' => (inflight tag m').trans (or_iff_left ?_).symm⟩
      exact fun impossible => Bool.noConfusion (ack.symm.trans impossible.1)
  | false =>
    rw [if_neg Bool.false_ne_true]
    obtain ⟨queues, channels⟩ := @tracked_at env _ _ _ pointed c m.id now
    refine after.sent picked here read takes fits rfl rfl (fun connId channel => ?_)
      ⟨_, queues.trans (congrArg (fun q => some { q with lastActivity := now }) held), ?_⟩
    · rw [channels, owed_one ack]
      split
      · rename_i own
        rw [own.1, own.2]
        rfl
      · exact (owing_none _).symm
    · refine ⟨left_ready, rfl, fun tag m' => ?_⟩
      dsimp only
      rw [FinMap.get?_insert]
      have id : m.id = qm.id := QueueMessage.resolve_id read
      split
      · rename_i same_tag
        subst same_tag
        have fresh := after.fresh distinct apart here (m := m')
        rw [← id] at fresh
        constructor
        · rintro ⟨⟩
          exact .inr ⟨ack, rfl, rfl⟩
        · rintro (old | ⟨-, -, rfl⟩)
          · exact absurd old fresh
          · rfl
      · rename_i other
        refine (inflight tag m').trans (or_iff_left ?_).symm
        rintro ⟨-, rfl, rfl⟩
        exact other rfl

theorem After.delivered {u : BrokerState} (few : cs.length ≤ maxDeliveriesPerPass)
    (channels : ∀ connId channel, u.channel? connId channel = t.channel? connId channel)
    (kept : ∀ q', t.queues.get? queue = some q' → ∃ u', u.queues.get? queue = some u' ∧
      u'.inflight = q'.inflight ∧ u'.messages.ready.map (·.resolve env.crc32 s.wal) =
        q'.messages.ready.map (·.resolve env.crc32 s.wal))
    (stops : cs.length = maxDeliveriesPerPass ∨ cs.length = q.messages.ready.length ∨
      (∀ c ∈ consumers, hasPrefetchCapacity u c.connId c.channel = false) ∨
      ∃ c, turnAfter s q consumers cs.length = some c ∧ ¬ s.takes answers cs.length c) :
    Delivered env s queue q consumers answers cs ms u where
  few := few
  each := after.each
  first := after.first
  listed c member := by
    obtain ⟨i, bound, here⟩ := List.mem_iff_getElem.mp member
    exact (schedule_fair after.turns (List.getElem?_eq_some_iff.mpr ⟨bound, here⟩)).1
  room i c here := (schedule_fair after.turns here).2
  counted connId channel := (channels connId channel).trans (after.counted connId channel)
  rest := by
    obtain ⟨q', found, ready, -, inflight⟩ := after.rest
    obtain ⟨u', present, same, readable⟩ := kept q' found
    refine ⟨u', present, readable.trans (congrArg _ ready), ?_⟩
    rw [same]
    exact inflight
  stops := stops

theorem After.allFit (rest : ∀ (i : Nat) (qm : QueueMessage) (c : Consumer), cs.length ≤ i →
    i < maxDeliveriesPerPass → q.messages.ready[i]? = some qm →
      ComesUp s q consumers answers i c → FitsDelivery c qm.names) :
    AllFit s q consumers answers := by
  intro i few qm c ready up
  by_cases early : i < cs.length
  · have here := List.getElem?_eq_getElem early
    obtain rfl := Option.some.inj ((schedule_turnAt after.turns here).symm.trans up.1)
    exact after.written i _ qm here ready
  · exact rest i qm c (Nat.le_of_not_lt early) few ready up

section
variable {taken : Bool} {now : Instant}

theorem After.turn_empty (few : cs.length < maxDeliveriesPerPass)
    (all : cs.length = q.messages.ready.length) :
    (deliverTurn queue consumers taken now : Act env _).result t = some (false, false, []) ∧
      Delivered env s queue q consumers answers cs ms
        ((deliverTurn queue consumers taken now : Act env _).final t) ∧
      AllFit s q consumers answers := by
  obtain ⟨q', found, ready, -, -⟩ := after.rest
  have empty : q'.messages.ready = [] := by
    rw [ready, all]
    exact List.drop_length
  have turned := @deliverTurn_empty env t queue q' consumers taken now found empty
  rw [turned.2]
  refine ⟨turned.1, ?_, ?_⟩
  · exact after.delivered (Nat.le_of_lt few) (fun _ _ => rfl)
      (fun u' present => ⟨u', present, rfl, rfl⟩) (.inr (.inl all))
  · refine after.allFit fun i qm c later _ here _ => ?_
    have := (List.getElem?_eq_some_iff.mp here).1
    omega

section
variable {qm : QueueMessage} {m : Message} {next : Nat} {c : Consumer}
  (here : q.messages.ready[cs.length]? = some qm) (read : qm.resolve env.crc32 s.wal = .ok m)
include here read

theorem After.turn_picked {picked : Option Consumer}
    (picks : pick (s.hasRoom cs) consumers pointer consumers.length = (next, picked)) :
    let goesOn : Act env (Option (Bool × Bool × List Frame)) :=
      picked.elim (return some (false, false, [])) (attempt queue · m taken now)
    (deliverTurn queue consumers taken now : Act env _).result t =
        goesOn.result (t.pointed queue next) ∧
      (deliverTurn queue consumers taken now : Act env _).final t =
        goesOn.final (t.pointed queue next) := by
  obtain ⟨read', q', found, ready, moved, -⟩ := after.next here read
  have chosen : readyConsumer t consumers q'.nextListener consumers.length = (next, picked) := by
    rw [moved, after.picks, picks]
  exact @deliverTurn_ready env t queue q' qm m _ consumers taken now found ready read' next picked
    chosen

theorem After.turn_sent (distinct : q.readyIds.Nodup)
    (apart : ∀ id ∈ q.readyIds, q.inflight.get? id = none)
    (picks : pick (s.hasRoom cs) consumers pointer consumers.length = (next, some c))
    (fits : FitsDelivery c m.names) (answer : answers[cs.length]? = some taken)
    (taking : (t.connections.contains c.connId && taken) = true) :
    (deliverTurn queue consumers taken now : Act env _).result t =
        some (true, true, [.basicDeliver c.connId c.channel c.tag m]) ∧
      After env s queue q consumers answers (cs ++ [c]) (ms ++ [m]) next
        ((deliverTurn queue consumers taken now : Act env _).final t) := by
  obtain ⟨result, final⟩ := @After.turn_picked env s t queue q consumers answers cs ms pointer after
    taken now qm m next here read (some c) picks
  obtain ⟨sent_result, sent_final⟩ := @attempt_sends env (t.pointed queue next) queue m taken now c
    (encodeDeliveryFrames_isSome_iff.mpr fits) taking
  rw [Bool.and_eq_true, after.connections] at taking
  have takes : s.takes answers cs.length c := ⟨taking.1, answer.trans (congrArg some taking.2)⟩
  rw [Option.elim_some] at result final
  rw [resolve_names read] at fits
  rw [final, sent_final]
  exact ⟨result.trans sent_result, after.handed distinct apart picks here read takes fits now⟩

section
variable (few : cs.length < maxDeliveriesPerPass)
include few

theorem After.turn_full
    (picks : pick (s.hasRoom cs) consumers pointer consumers.length = (next, none)) :
    (deliverTurn queue consumers taken now : Act env _).result t = some (false, false, []) ∧
      Delivered env s queue q consumers answers cs ms
        ((deliverTurn queue consumers taken now : Act env _).final t) ∧
      AllFit s q consumers answers := by
  obtain ⟨result, final⟩ := @After.turn_picked env s t queue q consumers answers cs ms pointer after
    taken now qm m next here read none picks
  have nobody : turnAfter s q consumers cs.length = none := by
    rw [after.onTurn, picks]
  rw [final]
  refine ⟨result, ?_, ?_⟩
  · refine after.delivered (Nat.le_of_lt few) (fun _ _ => rfl) (fun u' present =>
      ⟨_, BrokerState.pointed_at present next, rfl, rfl⟩) (.inr (.inr (.inl fun c member => ?_)))
    change hasPrefetchCapacity t c.connId c.channel = false
    rw [after.capacity]
    exact full_of_pick_none (congrArg Prod.snd picks) member
  · refine after.allFit fun i qm c later _ _ up => ?_
    have there : ∃ d, turnAfter s q consumers cs.length = some d := by
      cases Nat.eq_or_lt_of_le later with
      | inl now => exact ⟨c, now ▸ up.1⟩
      | inr after => exact turnAt_before up.1 after
    obtain ⟨d, there⟩ := there
    rw [nobody] at there
    contradiction

section
variable (picks : pick (s.hasRoom cs) consumers pointer consumers.length = (next, some c))
include picks

theorem After.turn_lost (unfit : ¬ FitsDelivery c m.names) :
    (deliverTurn queue consumers taken now : Act env _).result t = none ∧
      ¬ AllFit s q consumers answers ∧
      ∃ q', ((deliverTurn queue consumers taken now : Act env _).final t).queues.get? queue =
          some q' ∧ q'.messages.ready = q.messages.ready.drop (cs.length + 1) := by
  obtain ⟨result, final⟩ := @After.turn_picked env s t queue q consumers answers cs ms pointer after
    taken now qm m next here read (some c) picks
  obtain ⟨read', q', found, ready, -, -⟩ := after.next here read
  have pointed := BrokerState.pointed_at found next
  obtain ⟨left, -, left_ready, -, dropped, -, -⟩ :=
    popTo_of_ready (q := { q' with nextListener := next }) ready read'
  have long : encodeDeliveryFrames c.channel c.tag m = none := by
    rw [← Option.not_isSome_iff_eq_none, encodeDeliveryFrames_isSome_iff]
    exact unfit
  obtain ⟨lost_result, lost_final⟩ :=
    @attempt_panics env (t.pointed queue next) queue m taken now c long
  rw [Option.elim_some] at result final
  rw [resolve_names read] at unfit
  rw [final, lost_final]
  refine ⟨result.trans lost_result, fun all => unfit (all _ few qm c here ?_), ?_⟩
  · exact after.comesUp picks
  · exact ⟨_, (get?_modifyQueue_of pointed _).trans (congrArg some dropped), left_ready⟩

theorem After.turn_refused (fits : FitsDelivery c m.names)
    (answer : answers[cs.length]? = some taken)
    (refused : (t.connections.contains c.connId && taken) = false) :
    (deliverTurn queue consumers taken now : Act env _).result t = some (false, false, []) ∧
      Delivered env s queue q consumers answers cs ms
        ((deliverTurn queue consumers taken now : Act env _).final t) ∧
      AllFit s q consumers answers := by
  obtain ⟨result, final⟩ := @After.turn_picked env s t queue q consumers answers cs ms pointer after
    taken now qm m next here read (some c) picks
  obtain ⟨read', q', found, ready, -, -⟩ := after.next here read
  have pointed := BrokerState.pointed_at found next
  obtain ⟨-, back, -, back_ready, -, front, -⟩ :=
    popTo_of_ready (q := { q' with nextListener := next }) ready read'
  obtain ⟨back_result, back_final⟩ := @attempt_fails env (t.pointed queue next) queue m taken now c
    (encodeDeliveryFrames_isSome_iff.mpr fits) refused
  have up := (after.comesUp picks).1
  have failed : ¬ s.takes answers cs.length c := by
    rintro ⟨connected, taken'⟩
    have : taken = true := Option.some.inj (answer.symm.trans taken')
    rw [this, Bool.and_true, after.connections, connected] at refused
    contradiction
  rw [Option.elim_some] at result final
  rw [resolve_names read] at fits
  refine ⟨result.trans back_result, ?_, after.allFit fun i qm' c' later _ here' up' => ?_⟩
  · rw [final, back_final]
    refine after.delivered (Nat.le_of_lt few) (fun _ _ => rfl) (fun u' present => ?_)
      (.inr (.inr (.inr ⟨c, up, failed⟩)))
    obtain rfl := Option.some.inj (found.symm.trans present)
    refine ⟨_, (get?_modifyQueue_of pointed _).trans (congrArg some front), rfl, ?_⟩
    dsimp only
    rw [back_ready, ready, List.map_cons, List.map_cons, read]
    rfl
  · cases Nat.eq_or_lt_of_le later with
    | inl now =>
      subst now
      obtain rfl := Option.some.inj (here.symm.trans here')
      obtain rfl := Option.some.inj (up.symm.trans up'.1)
      exact fits
    | inr after => exact absurd (up'.2 _ after c up) failed

end

end

end

theorem After.within : cs.length ≤ q.messages.ready.length := by
  have := congrArg List.length after.first
  rw [List.length_map, List.length_map, List.length_take, after.each] at this
  omega

/-- One turn: the pass stops as it should, goes on, or loses the message that was next. -/
theorem After.turn (resolves : ∀ qm ∈ q.messages.ready, ∃ m, qm.resolve env.crc32 s.wal = .ok m)
    (distinct : q.readyIds.Nodup) (apart : ∀ id ∈ q.readyIds, q.inflight.get? id = none)
    (few : cs.length < maxDeliveriesPerPass) (answer : answers[cs.length]? = some taken) :
    let turn := (deliverTurn queue consumers taken now : Act env _)
    (turn.result t = some (false, false, []) ∧
        Delivered env s queue q consumers answers cs ms (turn.final t) ∧
        AllFit s q consumers answers) ∨
      (∃ c m next, turn.result t = some (true, true, [.basicDeliver c.connId c.channel c.tag m]) ∧
        After env s queue q consumers answers (cs ++ [c]) (ms ++ [m]) next (turn.final t)) ∨
      turn.result t = none ∧ ¬ AllFit s q consumers answers ∧
        cs.length < q.messages.ready.length ∧
        ∃ q', (turn.final t).queues.get? queue = some q' ∧
          q'.messages.ready = q.messages.ready.drop (cs.length + 1) := by
  cases Nat.eq_or_lt_of_le after.within with
  | inl all => exact .inl (after.turn_empty few all)
  | inr bound =>
    have here := List.getElem?_eq_getElem bound
    obtain ⟨m, read⟩ := resolves _ (List.mem_of_getElem? here)
    obtain ⟨next, picked⟩ : ∃ next, (pick (s.hasRoom cs) consumers pointer consumers.length).1 =
      next := ⟨_, rfl⟩
    cases found : (pick (s.hasRoom cs) consumers pointer consumers.length).2 with
    | none => exact .inl (after.turn_full here read few (Prod.ext picked found))
    | some c =>
      have picks : pick (s.hasRoom cs) consumers pointer consumers.length = (next, some c) :=
        Prod.ext picked found
      by_cases fits : FitsDelivery c m.names
      · cases taking : t.connections.contains c.connId && taken with
        | false => exact .inl (after.turn_refused here read few picks fits answer taking)
        | true =>
          exact .inr (.inl ⟨c, m, next,
            after.turn_sent here read distinct apart picks fits answer taking⟩)
      · obtain ⟨lost, unfit, gone⟩ := after.turn_lost here read few picks fits
        exact .inr (.inr ⟨lost, unfit, bound, gone⟩)

end

end

end

theorem deliveries_concat {cs : List Consumer} {ms : List Message} (each : ms.length = cs.length)
    (c : Consumer) (m : Message) : deliveries (cs ++ [c]) (ms ++ [m]) =
      deliveries cs ms ++ [.basicDeliver c.connId c.channel c.tag m] :=
  List.zipWith_append each.symm

theorem deliveries_length {cs : List Consumer} {ms : List Message} (each : ms.length = cs.length) :
    (deliveries cs ms).length = cs.length := by
  unfold deliveries
  rw [List.length_zipWith, each, Nat.min_self]

/-- A pass from a turn on: either all is as it should be and all fits, or not all fits and a
    message is missing. -/
theorem After.pass {consumers : List Consumer} {answers left : List Bool} (now : Instant)
    (resolves : ∀ qm ∈ q.messages.ready, ∃ m, qm.resolve env.crc32 s.wal = .ok m)
    (distinct : q.readyIds.Nodup) (apart : ∀ id ∈ q.readyIds, q.inflight.get? id = none)
    (enough : maxDeliveriesPerPass ≤ answers.length) {cs : List Consumer} {ms : List Message}
    {pointer : Nat} {t : BrokerState}
    (after : After env s queue q consumers answers cs ms pointer t)
    (few : cs.length < maxDeliveriesPerPass) (given : answers.drop cs.length = left) :
    let pass := (deliverPass queue consumers now left cs.length : Act env _)
    ∃ cs' ms', deliveries cs ms ++ (pass.result t).1 = deliveries cs' ms' ∧
      ms'.length = cs'.length ∧
      ((Delivered env s queue q consumers answers cs' ms' (pass.final t) ∧
          AllFit s q consumers answers) ∨
        ¬ AllFit s q consumers answers ∧ cs'.length < q.messages.ready.length ∧
          ∃ q', (pass.final t).queues.get? queue = some q' ∧
            q'.messages.ready = q.messages.ready.drop (cs'.length + 1)) := by
  -- the answers left give the turns; what is sent so far grows with them
  induction left generalizing cs ms pointer t with
  | nil =>
    have := List.drop_eq_nil_iff.mp given
    omega
  | cons taken left ih =>
    have answer : answers[cs.length]? = some taken := by
      rw [← List.head?_drop, given]
      rfl
    have later : answers.drop (cs.length + 1) = left := by
      rw [← List.tail_drop, given]
      rfl
    unfold deliverPass
    dsimp only
    rw [result_bind, final_bind]
    obtain ⟨result, delivered, fit⟩ | ⟨c, m, next, result, goes_on⟩ | ⟨result, unfit, lost⟩ :=
      @After.turn env s t queue q consumers answers cs ms pointer after taken now resolves distinct
        apart few answer
    · rw [result]
      exact ⟨cs, ms, List.append_nil _, after.each, .inl ⟨delivered, fit⟩⟩
    · rw [result]
      have longer : (cs ++ [c]).length = cs.length + 1 := List.length_append
      dsimp only
      by_cases more : cs.length + 1 < maxDeliveriesPerPass
      · rw [if_pos rfl, if_pos (by simpa using more)]
        rw [result_bind, final_bind, result_pure, final_pure]
        obtain ⟨cs', ms', frames, each, ends⟩ :=
          ih goes_on (longer ▸ more) (longer ▸ later)
        rw [longer] at frames ends
        refine ⟨cs', ms', ?_, each, ends⟩
        rw [← frames, deliveries_concat after.each, List.append_assoc]
      · rw [if_pos rfl, if_neg (by simpa using more)]
        have full : (cs ++ [c]).length = maxDeliveriesPerPass := by omega
        refine ⟨cs ++ [c], ms ++ [m], (deliveries_concat after.each c m).symm, goes_on.each,
          .inl ⟨?_, ?_⟩⟩
        · exact goes_on.delivered (Nat.le_of_eq full) (fun _ _ => rfl)
            (fun u' present => ⟨u', present, rfl, rfl⟩) (.inl full)
        · exact goes_on.allFit fun i _ _ late early => by omega
    · rw [result]
      exact ⟨cs, ms, List.append_nil _, after.each, .inr ⟨unfit, lost⟩⟩

theorem allFit_of_short {consumers : List Consumer} {answers : List Bool}
    (names : ∀ qm ∈ q.messages.ready, ShortNames qm.names)
    (tags : ∀ c ∈ consumers, FitsShortstr c.tag) : AllFit s q consumers answers :=
  fun _ _ qm c here up =>
    ⟨tags c (turnAt_mem up.1), names qm (List.mem_of_getElem? here)⟩

/-- One pass hands out the first messages of the queue, each to one consumer with room, leaves the
    others in their order, and stops early for a reason only, exactly if every delivery that it
    tries can be written. -/
theorem pass_exact_iff (env : Env) (s : BrokerState) (queue : String) (q : QueueState)
    (found : s.queues.get? queue = some q) (consumers : List Consumer) (answers : List Bool)
    (enough : maxDeliveriesPerPass ≤ answers.length) (now : Instant)
    (resolves : ∀ qm ∈ q.messages.ready, ∃ m, qm.resolve env.crc32 s.wal = .ok m)
    (distinct : q.readyIds.Nodup) (apart : ∀ id ∈ q.readyIds, q.inflight.get? id = none) :
    let pass := (deliverPass queue consumers now answers 0 : Act env _)
    (∃ cs ms, (pass.result s).1 = deliveries cs ms ∧
      Delivered env s queue q consumers answers cs ms (pass.final s)) ↔
        AllFit s q consumers answers := by
  have start := @after_start env s queue q consumers answers found
  obtain ⟨cs, ms, frames, each, ends⟩ :=
    start.pass now resolves distinct apart enough (by decide)
      (show answers.drop 0 = answers from rfl)
  constructor
  · rintro ⟨cs', ms', same, delivered⟩
    cases ends with
    | inl fine => exact fine.2
    | inr lost =>
      obtain ⟨-, bound, q', present, ready⟩ := lost
      obtain ⟨q'', present', readable, -⟩ := delivered.rest
      obtain rfl := Option.some.inj (present.symm.trans present')
      have sent : cs'.length = cs.length := by
        rw [← deliveries_length delivered.each, ← deliveries_length each, ← frames, ← same]
        rfl
      have left := congrArg List.length readable
      rw [ready, List.length_map, List.length_map, List.length_drop, List.length_drop, sent] at left
      omega
  · intro fits
    cases ends with
    | inl fine => exact ⟨cs, ms, frames, fine.1⟩
    | inr lost => exact absurd fits lost.1

theorem exists_of_isOk {ε α : Type} {e : Except ε α} (ok : e.isOk = true) : ∃ a, e = .ok a := by
  cases e with
  | error => contradiction
  | ok a => exact ⟨a, rfl⟩

theorem pass_exact_short :
    let s := reached (plainEnv 64 1) guestOnly none (bothSides "f" "key")
    let answers := List.replicate 100 true
    ∃ q, s.queues.get? "q" = some q ∧ q.messages.ready.length = 2 ∧
      let pass := (deliverPass "q" q.activeConsumers 0 answers 0 : Act (plainEnv 64 1) _)
      ∃ cs ms, (pass.result s).1 = deliveries cs ms ∧
        Delivered (plainEnv 64 1) s "q" q q.activeConsumers answers cs ms (pass.final s) := by
  intro s answers
  have there : (s.queues.get? "q").any (fun q => decide (q.messages.ready.length = 2 ∧
      (∀ qm ∈ q.messages.ready, (qm.resolve (plainEnv 64 1).crc32 s.wal).isOk = true) ∧
      q.readyIds.Nodup ∧ q.readyIds.all (q.inflight.get? · = none) = true ∧
      (∀ qm ∈ q.messages.ready, ShortNames qm.names) ∧
      ∀ c ∈ q.activeConsumers, FitsShortstr c.tag)) = true := by decide +kernel
  obtain ⟨q, found, here⟩ := (Option.any_eq_true _ _).mp there
  obtain ⟨two, read, distinct, apart, names, tags⟩ := of_decide_eq_true here
  simp only [List.all_eq_true, decide_eq_true_eq] at apart
  exact ⟨q, found, two, (pass_exact_iff (plainEnv 64 1) s "q" q found q.activeConsumers answers
    (by decide) 0 (fun qm member => exists_of_isOk (read qm member)) distinct apart).mpr
      (allFit_of_short names tags)⟩

/-- The management interface takes a routing key of 256 bytes, and the delivery panics behind the
    pop: one message is sent, and the other is gone. -/
theorem long_key_lost :
    let s := reached (plainEnv 64 1) guestOnly none (bothSides "f" longKey)
    let answers := List.replicate 100 true
    ∃ q, s.queues.get? "q" = some q ∧
      (∀ qm ∈ q.messages.ready, ∃ m, qm.resolve (plainEnv 64 1).crc32 s.wal = .ok m) ∧
      q.readyIds.Nodup ∧ (∀ id ∈ q.readyIds, q.inflight.get? id = none) ∧
      let pass := (deliverPass "q" q.activeConsumers 0 answers 0 : Act (plainEnv 64 1) _)
      ¬ ∃ cs ms, (pass.result s).1 = deliveries cs ms ∧
        Delivered (plainEnv 64 1) s "q" q q.activeConsumers answers cs ms (pass.final s) := by
  intro s answers
  let pass (q : QueueState) : Act (plainEnv 64 1) (List Frame × Bool) :=
    deliverPass "q" q.activeConsumers 0 answers 0
  have there : (s.queues.get? "q").any (fun q => decide (q.messages.ready.length = 2 ∧
      (∀ qm ∈ q.messages.ready, (qm.resolve (plainEnv 64 1).crc32 s.wal).isOk = true) ∧
      q.readyIds.Nodup ∧ q.readyIds.all (q.inflight.get? · = none) = true ∧
      ((pass q).result s).1.length = 1 ∧
      (((pass q).final s).queues.get? "q").map (·.messages.ready.length) = some 0)) = true := by
    decide +kernel
  obtain ⟨q, found, here⟩ := (Option.any_eq_true _ _).mp there
  obtain ⟨two, read, distinct, apart, one, empty⟩ := of_decide_eq_true here
  simp only [List.all_eq_true, decide_eq_true_eq] at apart
  refine ⟨q, found, fun qm member => exists_of_isOk (read qm member), distinct, apart, ?_⟩
  change ¬ ∃ cs ms, ((pass q).result s).1 = deliveries cs ms ∧
    Delivered _ s "q" q q.activeConsumers answers cs ms ((pass q).final s)
  rintro ⟨cs, ms, sent, delivered⟩
  have single : cs.length = 1 := by
    rw [← deliveries_length delivered.each, ← sent]
    exact one
  obtain ⟨q', present, readable, -⟩ := delivered.rest
  have none_left : q'.messages.ready.length = 0 := by
    rw [present] at empty
    exact Option.some.inj empty
  have left := congrArg List.length readable
  rw [List.length_map, List.length_map, List.length_drop, single, two] at left
  omega

end

end RocketmqBroker
