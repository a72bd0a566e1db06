import RocketmqBroker.Handlers.Session

/-!
The consumer lists of a queue (queue/state.rs, state/broker.rs): the tags, and what is
derived from them by hand, which are the snapshot that deliveries are made to, the
listening channels, their number and the members of the consumer groups.
-/
namespace RocketmqBroker

structure ConsumerGroup where
  name : String
  members : List (UInt64 × UInt16)

namespace ConsumerGroup

def new (name : String) : ConsumerGroup := ⟨name, []⟩

def addMember (g : ConsumerGroup) (connId : UInt64) (channel : UInt16) : ConsumerGroup × Bool :=
  if g.members.contains (connId, channel) then (g, false)
  else ({ g with members := g.members ++ [(connId, channel)] }, true)

def removeMember (g : ConsumerGroup) (connId : UInt64) (channel : UInt16) : ConsumerGroup × Bool :=
  let members := g.members.filter fun m => !(m.1 == connId && m.2 == channel)
  ({ g with members }, members.length != g.members.length)

end ConsumerGroup

def channelsOf (tags : FinMap String (UInt64 × UInt16 × Bool)) : List (UInt64 × UInt16) :=
  tags.entries.map fun e => (e.2.1, e.2.2.1)

structure GroupedQueue extends QueueState where
  consumerCount : Nat
  groups : FinMap String ConsumerGroup

namespace GroupedQueue

def withOptions (options : QueueOptions) (now : Instant) : GroupedQueue :=
  { toQueueState := .withOptions options now, consumerCount := 0, groups := ∅ }

/-- `add_consumer` once the tag is known. -/
def addConsumer (q : GroupedQueue) (connId : UInt64) (channel : UInt16) (tag : String)
    (group : Option String) (noAck : Bool) : GroupedQueue :=
  let queue := q.toQueueState.addConsumer connId channel tag noAck
  { toQueueState := queue
    consumerCount := queue.listeners.length
    groups := match group with
      | none => q.groups
      | some name =>
        q.groups.insert name (((q.groups.get? name).getD (.new name)).addMember connId channel).1 }

def cancelConsumer (q : GroupedQueue) (tag : String) : GroupedQueue × Bool :=
  match q.consumerTags.get? tag with
  | none => (q, false)
  | some (connId, channel, _) =>
    let consumerTags := q.consumerTags.erase tag
    let listeners := q.listeners.filter fun l => !(l.1 == connId && l.2 == channel)
    let groups := q.groups.mapVals fun _ g => (g.removeMember connId channel).1
    ({ q with
      listeners
      consumerCount := listeners.length
      groups := groups.retain fun _ g => !g.members.isEmpty
      consumerTags
      activeConsumers := QueueState.snapshotConsumers consumerTags }, true)

/-- What `remove_connection` does to the consumers of one queue: the snapshot and the
    groups are left as they are. -/
def dropConsumers (q : GroupedQueue) (connId : UInt64) : GroupedQueue :=
  let queue := (dropListeners connId).apply q.toQueueState
  { q with toQueueState := queue, consumerCount := queue.listeners.length }

structure Agrees (q : GroupedQueue) : Prop where
  active : q.activeConsumers.Perm (QueueState.snapshotConsumers q.consumerTags)
  listeners : ∀ l, l ∈ q.listeners ↔ l ∈ channelsOf q.consumerTags
  once : q.listeners.Nodup
  count : q.consumerCount = q.listeners.length
  grouped : ∀ name g, q.groups.get? name = some g → ∀ m ∈ g.members,
    m ∈ channelsOf q.consumerTags

end GroupedQueue

structure ConsumerBroker where
  queues : FinMap String GroupedQueue
  connExclusiveQueues : FinMap UInt64 (List String)
  nextConsumerTag : UInt64

inductive ConsumerEvent where
  | declare (name : String) (options : QueueOptions) (owner : Option UInt64) (now : Instant)
  | delete (name : String) (connId : UInt64)
  | addConsumer (queue : String) (connId : UInt64) (channel : UInt16) (tag group : Option String)
      (noAck : Bool)
  | cancelConsumer (queue tag : String)
  | removeConnection (connId : UInt64)
  deriving DecidableEq, Repr

namespace ConsumerBroker

def start : ConsumerBroker := ⟨∅, ∅, 1⟩

/-- The tag of a new consumer: its own or one from the counter. -/
def consumerTag (s : ConsumerBroker) (connId : UInt64) (tag : Option String) : String :=
  tag.getD ("ctag-" ++ toString connId ++ "-" ++ toString s.nextConsumerTag)

def exclusiveQueues (s : ConsumerBroker) (connId : UInt64) : List String :=
  (s.connExclusiveQueues.get? connId).getD []

/-- `remove_connection`, without the deliveries. -/
def removeConnection (s : ConsumerBroker) (connId : UInt64) : ConsumerBroker :=
  let queues := (s.exclusiveQueues connId).foldl FinMap.erase s.queues
  let queues := queues.mapVals fun _ q => q.dropConsumers connId
  let queues := queues.retain fun _ q => !(q.options.exclusive && q.ownerConnId == some connId)
  { s with
    connExclusiveQueues := s.connExclusiveQueues.erase connId
    queues := queues.retain fun _ q => !(q.options.autoDelete && q.listeners.isEmpty) }

def step (s : ConsumerBroker) : ConsumerEvent → ConsumerBroker
  | .declare name options owner now =>
    if s.queues.contains name then s
    else { s with
      queues := s.queues.insert name
        { GroupedQueue.withOptions options now with nameArc := name, ownerConnId := owner }
      connExclusiveQueues := match owner with
        | none => s.connExclusiveQueues
        | some connId => s.connExclusiveQueues.insert connId (s.exclusiveQueues connId ++ [name]) }
  | .delete name connId => { s with
    queues := s.queues.erase name
    connExclusiveQueues := s.connExclusiveQueues.modify connId (List.filter (· != name)) }
  | .addConsumer queue connId channel tag group noAck => { s with
    queues := s.queues.modify queue fun q =>
      q.addConsumer connId channel (s.consumerTag connId tag) group noAck
    nextConsumerTag := if tag.isNone && s.queues.contains queue then s.nextConsumerTag + 1
      else s.nextConsumerTag }
  | .cancelConsumer queue tag => { s with
    queues := s.queues.modify queue fun q => (q.cancelConsumer tag).1 }
  | .removeConnection connId => s.removeConnection connId

def Agree (s : ConsumerBroker) : Prop :=
  ∀ name q, s.queues.get? name = some q → q.Agrees

/-- The queue is still there when the connection is gone. -/
def outlives (s : ConsumerBroker) (connId : UInt64) (name : String) (q : GroupedQueue) : Bool :=
  !((s.exclusiveQueues connId).contains name) &&
    !(q.options.exclusive && q.ownerConnId == some connId) &&
    !(q.options.autoDelete && (q.listeners.filter fun l => l.1 != connId).isEmpty)

/-- A tag is used again only where its last consumer was on the same channel or on one
    with another consumer; a consumer is cancelled only when it is the only one on its
    channel; and a connection goes only when the queues with its consumers go with it. -/
def Apart (s : ConsumerBroker) : ConsumerEvent → Prop
  | .addConsumer queue connId channel tag _ _ => ∀ q ∈ s.queues.get? queue,
    let tag := s.consumerTag connId tag
    ∀ c ∈ q.consumerTags.get? tag, (c.1, c.2.1) = (connId, channel) ∨
      (c.1, c.2.1) ∈ channelsOf (q.consumerTags.erase tag)
  | .cancelConsumer queue tag => ∀ q ∈ s.queues.get? queue, ∀ c ∈ q.consumerTags.get? tag,
    (c.1, c.2.1) ∉ channelsOf (q.consumerTags.erase tag)
  | .removeConnection connId => ∀ e ∈ s.queues.entries, s.outlives connId e.1 e.2 = true →
    ∀ c ∈ e.2.consumerTags.entries, c.2.1 ≠ connId
  | _ => True

end ConsumerBroker

section
variable {tags : FinMap String (UInt64 × UInt16 × Bool)} {tag : String} {l : UInt64 × UInt16}

theorem mem_channelsOf :
    l ∈ channelsOf tags ↔ ∃ t c, tags.get? t = some c ∧ (c.1, c.2.1) = l := by
  unfold channelsOf
  rw [List.mem_map]
  constructor
  · rintro ⟨e, member, rfl⟩
    exact ⟨e.1, e.2, FinMap.get?_eq_some_iff_mem.mpr member, rfl⟩
  · rintro ⟨t, c, found, rfl⟩
    exact ⟨⟨t, c⟩, FinMap.get?_eq_some_iff_mem.mp found, rfl⟩

theorem channelsOf_split (tags : FinMap String (UInt64 × UInt16 × Bool)) (tag : String) :
    l ∈ channelsOf tags ↔
      (∃ c ∈ tags.get? tag, (c.1, c.2.1) = l) ∨ l ∈ channelsOf (tags.erase tag) := by
  rw [mem_channelsOf, mem_channelsOf]
  constructor
  · rintro ⟨t, c, found, same⟩
    by_cases here : t = tag
    · subst here
      exact .inl ⟨c, found, same⟩
    · refine .inr ⟨t, c, ?_, same⟩
      rw [FinMap.get?_erase, if_neg here]
      exact found
  · rintro (⟨c, found, same⟩ | ⟨t, c, found, same⟩)
    · exact ⟨tag, c, found, same⟩
    · rw [FinMap.get?_erase] at found
      split at found
      · cases found
      · exact ⟨t, c, found, same⟩

theorem channelsOf_insert (connId : UInt64) (channel : UInt16) (noAck : Bool) :
    l ∈ channelsOf (tags.insert tag (connId, channel, noAck)) ↔
      l = (connId, channel) ∨ l ∈ channelsOf (tags.erase tag) := by
  rw [channelsOf_split _ tag, FinMap.get?_insert_self]
  have others : l ∈ channelsOf ((tags.insert tag (connId, channel, noAck)).erase tag) ↔
      l ∈ channelsOf (tags.erase tag) := by
    rw [mem_channelsOf, mem_channelsOf]
    refine exists_congr fun t => exists_congr fun c => and_congr_left fun _ => ?_
    rw [FinMap.get?_erase, FinMap.get?_erase, FinMap.get?_insert]
    split <;> rfl
  rw [others]
  refine or_congr_left ⟨?_, ?_⟩
  · rintro ⟨c, here, rfl⟩
    rw [← Option.some.inj here]
  · rintro rfl
    exact ⟨_, rfl, rfl⟩

end

namespace GroupedQueue
variable {q : GroupedQueue}

theorem agrees_withOptions (options : QueueOptions) (now : Instant) :
    (GroupedQueue.withOptions options now).Agrees where
  active := .refl _
  listeners l := Iff.rfl
  once := List.nodup_nil
  count := rfl
  grouped _ _ found := by cases found

theorem mem_listeners_addConsumer {connId : UInt64} {channel : UInt16} {tag : String}
    {group : Option String} {noAck : Bool} {l : UInt64 × UInt16} :
    l ∈ (q.addConsumer connId channel tag group noAck).listeners ↔
      l ∈ q.listeners ∨ l = (connId, channel) := by
  unfold addConsumer QueueState.addConsumer
  dsimp only
  split
  · rename_i known
    refine ⟨.inl, ?_⟩
    rintro (old | rfl)
    · exact old
    · exact known
  · rw [List.mem_append, List.mem_singleton]

theorem nodup_listeners_addConsumer (once : q.listeners.Nodup) (connId : UInt64)
    (channel : UInt16) (tag : String) (group : Option String) (noAck : Bool) :
    (q.addConsumer connId channel tag group noAck).listeners.Nodup := by
  unfold addConsumer QueueState.addConsumer
  dsimp only
  split
  · exact once
  · rename_i new
    refine List.nodup_append.mpr ⟨once, List.nodup_singleton _, fun a old b last same => ?_⟩
    rw [List.mem_singleton.mp last] at same
    exact new (same ▸ old)

theorem grouped_addConsumer {connId : UInt64} {channel : UInt16} {tag : String}
    {group : Option String} {noAck : Bool} {name : String} {g : ConsumerGroup}
    {m : UInt64 × UInt16}
    (found : (q.addConsumer connId channel tag group noAck).groups.get? name = some g)
    (member : m ∈ g.members) :
    m = (connId, channel) ∨ ∃ old, q.groups.get? name = some old ∧ m ∈ old.members := by
  unfold addConsumer at found
  dsimp only at found
  cases group with
  | none => exact .inr ⟨g, found, member⟩
  | some into =>
    dsimp only at found
    rw [FinMap.get?_insert] at found
    split at found
    · rename_i same
      subst same
      obtain rfl := Option.some.inj found
      have grown : m = (connId, channel) ∨
          m ∈ ((q.groups.get? name).getD (.new name)).members := by
        unfold ConsumerGroup.addMember at member
        split at member
        · exact .inr member
        · exact (List.mem_append.mp member).symm.imp_left List.mem_singleton.mp
      refine grown.imp_right fun old => ?_
      cases there : q.groups.get? name with
      | none =>
        rw [there] at old
        cases old
      | some before =>
        rw [there] at old
        exact ⟨before, rfl, old⟩
    · exact .inr ⟨g, found, member⟩

theorem agrees_addConsumer (agrees : q.Agrees) (connId : UInt64) (channel : UInt16)
    (tag : String) (group : Option String) (noAck : Bool) :
    (q.addConsumer connId channel tag group noAck).Agrees ↔
      ∀ c ∈ q.consumerTags.get? tag, (c.1, c.2.1) = (connId, channel) ∨
        (c.1, c.2.1) ∈ channelsOf (q.consumerTags.erase tag) := by
  have tags : (q.addConsumer connId channel tag group noAck).consumerTags =
      q.consumerTags.insert tag (connId, channel, noAck) := rfl
  constructor
  · intro after c found
    have old : (c.1, c.2.1) ∈ q.listeners :=
      (agrees.listeners _).mpr ((channelsOf_split _ tag).mpr (.inl ⟨c, found, rfl⟩))
    have now := (after.listeners _).mp (mem_listeners_addConsumer.mpr (.inl old))
    rw [tags] at now
    exact (channelsOf_insert _ _ _).mp now
  · intro spared
    have kept : ∀ l, l ∈ channelsOf q.consumerTags →
        l ∈ channelsOf (q.consumerTags.insert tag (connId, channel, noAck)) := by
      intro l old
      refine (channelsOf_insert _ _ _).mpr ?_
      obtain ⟨c, found, rfl⟩ | other := (channelsOf_split _ tag).mp old
      · exact spared c found
      · exact .inr other
    refine ⟨.refl _, fun l => ?_, nodup_listeners_addConsumer agrees.once .., rfl, ?_⟩
    · rw [mem_listeners_addConsumer, agrees.listeners, tags]
      constructor
      · rintro (old | rfl)
        · exact kept l old
        · exact (channelsOf_insert _ _ _).mpr (.inl rfl)
      · intro now
        obtain rfl | other := (channelsOf_insert _ _ _).mp now
        · exact .inr rfl
        · exact .inl ((channelsOf_split _ tag).mpr (.inr other))
    · intro name g found m member
      rw [tags]
      obtain rfl | ⟨old, there, before⟩ := grouped_addConsumer found member
      · exact (channelsOf_insert _ _ _).mpr (.inl rfl)
      · exact kept m (agrees.grouped name old there m before)

end GroupedQueue

namespace GroupedQueue
variable {q : GroupedQueue}

theorem cancelConsumer_none {tag : String} (none : q.consumerTags.get? tag = none) :
    q.cancelConsumer tag = (q, false) := by
  unfold cancelConsumer
  rw [none]

theorem cancelConsumer_some {tag : String} {connId : UInt64} {channel : UInt16} {noAck : Bool}
    (found : q.consumerTags.get? tag = some (connId, channel, noAck)) :
    let after := (q.cancelConsumer tag).1
    after.consumerTags = q.consumerTags.erase tag ∧
      after.activeConsumers = QueueState.snapshotConsumers (q.consumerTags.erase tag) ∧
      after.listeners = q.listeners.filter (fun l => !(l.1 == connId && l.2 == channel)) ∧
      after.consumerCount = after.listeners.length ∧
      after.groups = (q.groups.mapVals fun _ g => (g.removeMember connId channel).1).retain
        fun _ g => !g.members.isEmpty := by
  unfold cancelConsumer
  rw [found]
  exact ⟨rfl, rfl, rfl, rfl, rfl⟩

theorem mem_filter_ne {ls : List (UInt64 × UInt16)} {connId : UInt64} {channel : UInt16}
    {l : UInt64 × UInt16} :
    l ∈ ls.filter (fun l => !(l.1 == connId && l.2 == channel)) ↔
      l ∈ ls ∧ l ≠ (connId, channel) := by
  rw [List.mem_filter]
  refine and_congr_right fun _ => ?_
  obtain ⟨c, ch⟩ := l
  rw [Ne, Prod.mk.injEq, not_and]
  simp [imp_iff_not_or]

theorem agrees_cancelConsumer (agrees : q.Agrees) (tag : String) :
    (q.cancelConsumer tag).1.Agrees ↔ ∀ c ∈ q.consumerTags.get? tag,
      (c.1, c.2.1) ∉ channelsOf (q.consumerTags.erase tag) := by
  cases found : q.consumerTags.get? tag with
  | none =>
    rw [cancelConsumer_none found]
    constructor
    · intro _ c absent
      cases absent
    · intro _
      exact agrees
  | some c =>
    obtain ⟨connId, channel, noAck⟩ := c
    obtain ⟨tags, active, listeners, count, groups⟩ := cancelConsumer_some found
    constructor
    · intro after c same
      obtain rfl := Option.some.inj same
      intro other
      rw [← tags] at other
      have listed := (after.listeners _).mpr other
      rw [listeners] at listed
      exact (mem_filter_ne.mp listed).2 rfl
    · intro alone
      have only := alone _ rfl
      have left : ∀ l, l ∈ channelsOf q.consumerTags ∧ l ≠ (connId, channel) ↔
          l ∈ channelsOf (q.consumerTags.erase tag) := by
        intro l
        rw [channelsOf_split _ tag, found]
        constructor
        · rintro ⟨⟨c, same, rfl⟩ | other, ne⟩
          · obtain rfl := Option.some.inj same
            exact absurd rfl ne
          · exact other
        · intro other
          refine ⟨.inr other, ?_⟩
          rintro rfl
          exact only other
      refine ⟨?_, fun l => ?_, ?_, count, ?_⟩
      · rw [active, tags]
      · rw [listeners, tags, mem_filter_ne, agrees.listeners]
        exact left l
      · rw [listeners]
        exact agrees.once.filter _
      · intro name g there m member
        rw [groups, FinMap.get?_retain, FinMap.get?_mapVals] at there
        obtain ⟨present, -⟩ := Option.filter_eq_some_iff.mp there
        obtain ⟨old, before, rfl⟩ := Option.map_eq_some_iff.mp present
        obtain ⟨oldMember, ne⟩ := mem_filter_ne.mp member
        rw [tags]
        exact (left m).mp ⟨agrees.grouped name old before m oldMember, ne⟩

/-- The snapshot is not made again when a connection goes, so it fits only when the
    connection had no consumer. -/
theorem agrees_dropConsumers (agrees : q.Agrees) (connId : UInt64) :
    (q.dropConsumers connId).Agrees ↔ ∀ e ∈ q.consumerTags.entries, e.2.1 ≠ connId := by
  have tags : (q.dropConsumers connId).consumerTags =
      q.consumerTags.retain fun _ c => c.1 != connId := rfl
  have entries : (q.dropConsumers connId).consumerTags.entries =
      q.consumerTags.entries.filter fun e => e.2.1 != connId := rfl
  constructor
  · intro after e member gone
    have before := agrees.active.length_eq
    have now := after.active.length_eq
    have snapshot : (q.dropConsumers connId).activeConsumers = q.activeConsumers := rfl
    unfold QueueState.snapshotConsumers at before now
    rw [snapshot, before, entries, List.length_map, List.length_map] at now
    have all := List.length_filter_eq_length_iff.mp now.symm e member
    rw [gone, bne_self_eq_false] at all
    cases all
  · intro spared
    have same : (q.dropConsumers connId).consumerTags.entries = q.consumerTags.entries := by
      rw [entries, List.filter_eq_self]
      intro e member
      exact bne_iff_ne.mpr (spared e member)
    have channels : channelsOf (q.dropConsumers connId).consumerTags =
        channelsOf q.consumerTags := by
      unfold channelsOf
      rw [same]
    have listeners : (q.dropConsumers connId).listeners = q.listeners := by
      refine List.filter_eq_self.mpr fun l listed => ?_
      obtain ⟨e, member, rfl⟩ := List.mem_map.mp ((agrees.listeners l).mp listed)
      exact bne_iff_ne.mpr (spared e member)
    refine ⟨?_, ?_, ?_, rfl, ?_⟩
    · unfold QueueState.snapshotConsumers
      rw [same]
      exact agrees.active
    · rw [listeners, channels]
      exact agrees.listeners
    · rw [listeners]
      exact agrees.once
    · rw [channels]
      exact agrees.grouped

end GroupedQueue

namespace ConsumerBroker
variable (s : ConsumerBroker)

theorem get?_removeConnection (connId : UInt64) (name : String) :
    (s.removeConnection connId).queues.get? name =
      ((s.queues.get? name).filter (s.outlives connId name)).map (·.dropConsumers connId) := by
  unfold removeConnection
  dsimp only
  rw [FinMap.get?_retain, FinMap.get?_retain, FinMap.get?_mapVals, FinMap.get?_foldl_erase]
  by_cases listed : name ∈ s.exclusiveQueues connId
  · have gone : (s.queues.get? name).filter (s.outlives connId name) = none := by
      refine Option.filter_eq_none_iff.mpr fun q _ => ?_
      unfold outlives
      rw [List.contains_iff_mem.mpr listed]
      simp
    rw [if_pos listed, gone]
    rfl
  · have unlisted : (s.exclusiveQueues connId).contains name = false := by
      simpa using listed
    rw [if_neg listed, Option.filter_filter, Option.filter_map]
    unfold outlives
    rw [unlisted]
    rfl

variable {s}

theorem agrees_modify {queue : String} {f : GroupedQueue → GroupedQueue} (agree : s.Agree) :
    (∀ name q, (s.queues.modify queue f).get? name = some q → q.Agrees) ↔
      ∀ q ∈ s.queues.get? queue, (f q).Agrees := by
  constructor
  · intro after q found
    refine after queue (f q) ?_
    rw [FinMap.get?_modify, if_pos rfl, found]
    rfl
  · intro changed name q found
    rw [FinMap.get?_modify] at found
    split at found
    · rename_i same
      obtain ⟨old, there, rfl⟩ := Option.map_eq_some_iff.mp found
      exact changed old (same ▸ there)
    · exact agree name q found

theorem agree_declare (agree : s.Agree) (name : String) (options : QueueOptions)
    (owner : Option UInt64) (now : Instant) :
    (s.step (.declare name options owner now)).Agree := by
  intro other q found
  unfold step at found
  dsimp only at found
  split at found
  · exact agree other q found
  · dsimp only at found
    rw [FinMap.get?_insert] at found
    split at found
    · obtain rfl := Option.some.inj found
      have fresh := GroupedQueue.agrees_withOptions options now
      exact ⟨fresh.active, fresh.listeners, fresh.once, fresh.count, fresh.grouped⟩
    · exact agree other q found

theorem agree_delete (agree : s.Agree) (name : String) (connId : UInt64) :
    (s.step (.delete name connId)).Agree := by
  intro other q found
  change (s.queues.erase name).get? other = some q at found
  rw [FinMap.get?_erase] at found
  split at found
  · cases found
  · exact agree other q found

theorem agree_removeConnection (agree : s.Agree) (connId : UInt64) :
    (s.removeConnection connId).Agree ↔
      ∀ e ∈ s.queues.entries, s.outlives connId e.1 e.2 = true →
        ∀ c ∈ e.2.consumerTags.entries, c.2.1 ≠ connId := by
  constructor
  · rintro after ⟨name, q⟩ member stays
    have found := FinMap.get?_eq_some_iff_mem.mpr member
    refine (GroupedQueue.agrees_dropConsumers (agree name q found) connId).mp
      (after name (q.dropConsumers connId) ?_)
    rw [get?_removeConnection, found, Option.filter_some, if_pos stays]
    rfl
  · intro spared name q found
    rw [get?_removeConnection] at found
    obtain ⟨old, there, rfl⟩ := Option.map_eq_some_iff.mp found
    obtain ⟨present, stays⟩ := Option.filter_eq_some_iff.mp there
    exact (GroupedQueue.agrees_dropConsumers (agree name old present) connId).mpr
      (spared ⟨name, old⟩ (FinMap.get?_eq_some_iff_mem.mp present) stays)

theorem agree_step (agree : s.Agree) (e : ConsumerEvent) : (s.step e).Agree ↔ s.Apart e := by
  cases e with
  | declare name options owner now =>
    exact iff_of_true (agree_declare agree name options owner now) trivial
  | delete name connId => exact iff_of_true (agree_delete agree name connId) trivial
  | addConsumer queue connId channel tag group noAck =>
    refine (agrees_modify agree).trans (forall₂_congr fun q found => ?_)
    exact GroupedQueue.agrees_addConsumer (agree queue q found) ..
  | cancelConsumer queue tag =>
    refine (agrees_modify agree).trans (forall₂_congr fun q found => ?_)
    exact GroupedQueue.agrees_cancelConsumer (agree queue q found) tag
  | removeConnection connId => exact agree_removeConnection agree connId

/-- The lists agree in every state of exactly the runs in which consumers come and go
    apart from one another. -/
theorem consumer_lists_agree (events : List ConsumerEvent) :
    (∀ before after, events = before ++ after → (Run.run step start before).Agree) ↔
      Run.Along step Apart start events := by
  have empty : start.Agree := by
    intro name q found
    cases found
  exact Run.throughout_iff_along (fun _ => True) empty trivial (fun _ _ _ _ => trivial)
    fun s e _ _ agree => agree_step agree e

/-- Two consumers on one channel: when the first is cancelled, nobody listens there. -/
theorem shared_channel_lost : ¬ ∀ (events before after : List ConsumerEvent),
    events = before ++ after → (Run.run step start before).Agree := by
  intro agree
  let events : List ConsumerEvent := [.declare "q" .default none 0,
    .addConsumer "q" 1 1 (some "a") none false, .addConsumer "q" 1 1 (some "b") none false,
    .cancelConsumer "q" "a"]
  have lists : ∃ q, (Run.run step start events).queues.get? "q" = some q ∧
      (1, 1) ∈ channelsOf q.consumerTags ∧ (1, 1) ∉ q.listeners := by
    refine ⟨_, rfl, ?_, ?_⟩ <;> decide +kernel
  obtain ⟨q, found, consumes, unlisted⟩ := lists
  exact unlisted (((agree events events [] rfl) "q" q found).listeners (1, 1) |>.mpr consumes)

end ConsumerBroker

end RocketmqBroker
