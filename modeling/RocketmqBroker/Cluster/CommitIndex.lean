import RocketmqBroker.Cluster.LeaderLogs

/-!
The commit index of a leader. A response to AppendEntries carries an index, and
neither the queue that it belongs to nor its sender: every group that the node
leads takes the index over as soon as two nodes make a quorum. That is sound where
the sender took that much from the leader of the group in the term, and so did most
replicas.
-/
namespace RocketmqBroker

namespace ClusterNodes

def Stores (nodes : ClusterNodes) (queue : String) (index : Nat) (entry : LogEntry RaftCommand)
    (x : UInt64) : Prop :=
  (nodes.group x queue).bind (·.log[index]?) = some entry

instance (nodes : ClusterNodes) (queue : String) (index : Nat) (entry : LogEntry RaftCommand) :
    DecidablePred (nodes.Stores queue index entry) :=
  fun _ => inferInstanceAs (Decidable (_ = _))

end ClusterNodes

/-- The replicas of a group that `x` leads, with `x` itself. -/
def RaftQueueState.replicas (g : RaftQueueState) (x : UInt64) : List UInt64 :=
  x :: g.nextIndex.keys

open ClusterNodes

/-- The index lies in the leader's log, and most replicas have the leader's entry. -/
structure StoredOnMajority (nodes : ClusterNodes) (x : UInt64) (queue : String)
    (g : RaftQueueState) (index : Nat) : Prop where
  within : index ≤ g.lastLogIndex
  majority : ∃ entry, g.log[index]? = some entry ∧
    (g.replicas x).length < 2 * (g.replicas x).countP (nodes.Stores queue index entry)

namespace LogTraffic

/-- A node took entries of a queue in a term, up to the index or further. -/
def Took (s : LogTraffic) (queue : String) (term : UInt64) (index : Nat) (y : UInt64) : Prop :=
  ∃ k ∈ s.takings, (k.node = y ∧ k.queue = queue ∧ k.term = term) ∧ index ≤ k.upTo

instance (s : LogTraffic) (queue : String) (term : UInt64) (index : Nat) :
    DecidablePred (s.Took queue term index) := fun y =>
  inferInstanceAs (Decidable (∃ k ∈ s.takings,
    (k.node = y ∧ k.queue = queue ∧ k.term = term) ∧ index ≤ k.upTo))

def InTerm (s : LogTraffic) (queue : String) (term : UInt64) (y : UInt64) : Prop :=
  (s.nodes.group y queue).map (·.currentTerm) = some term

instance (s : LogTraffic) (queue : String) (term : UInt64) : DecidablePred (s.InTerm queue term) :=
  fun _ => inferInstanceAs (Decidable (_ = _))

/-- For every group that takes the index of a response over: the node leads it in its
    term, the sender took entries up to the index in that term, and so did enough of the
    replicas that are still in it. -/
def Reported (leaderOf : String → UInt64 → UInt64) (s : LogTraffic) :
    UInt64 × ClusterInput → Prop
  | (x, .frame sender _ _ (.appendEntriesResponse _ success matchIndex)) =>
    success = true → (s.nodes x).isLeader = true →
      ((s.nodes x).quorum ≤ 2 ∨ (s.nodes x).peers.isEmpty = true) →
      ∀ queue ∈ (s.nodes x).queueRaftGroups.keys, ∀ g ∈ s.nodes.group x queue,
        g.role = .leader → g.commitIndex < matchIndex →
        leaderOf queue g.currentTerm = x ∧ s.Took queue g.currentTerm matchIndex sender ∧
          (g.replicas x).length < 2 * (g.replicas x).countP fun r => r = x ∨
            s.Took queue g.currentTerm matchIndex r ∧ s.InTerm queue g.currentTerm r
  | _ => True

instance (leaderOf : String → UInt64 → UInt64) (s : LogTraffic) (e : UInt64 × ClusterInput) :
    Decidable (s.Reported leaderOf e) := by
  obtain ⟨x, t | ⟨_, _, _, f⟩ | _⟩ := e
  · exact isTrue trivial
  · apply ClusterFrame.casesOn
      (motive := fun f => Decidable (Reported leaderOf s (x, .frame _ _ _ f))) f <;>
      intros <;> dsimp only [Reported] <;> infer_instance
  · exact isTrue trivial

end LogTraffic

def ClusterInput.isResponse : ClusterInput → Bool
  | frame _ _ _ (.appendEntriesResponse _ _ _) => true
  | _ => false

/-- Whenever a response moves the commit index of a group ahead, the group has the
    entry there on a majority of its replicas. -/
structure CommitsSafely (es : List (UInt64 × ClusterInput)) : Prop where
  advance : ∀ before x i after, es = before ++ (x, i) :: after → i.isResponse = true →
    ∀ queue g g', (Run.run step start before).group x queue = some g →
      (Run.run step start (before ++ [(x, i)])).group x queue = some g' →
      g.commitIndex < g'.commitIndex →
      StoredOnMajority (Run.run step start (before ++ [(x, i)])) x queue g' g'.commitIndex

section
variable {c : Coordinator} {success : Bool} {matchIndex : Nat} {queue : String}
  {g g' : RaftQueueState}

theorem response_advance (found : c.queueRaftGroups.get? queue = some g)
    (found' : (c.handleAppendEntriesResponse success matchIndex).queueRaftGroups.get? queue =
      some g')
    (more : g.commitIndex < g'.commitIndex) :
    (success = true ∧ c.isLeader = true ∧ (c.quorum ≤ 2 ∨ c.peers.isEmpty = true) ∧
      g.role = .leader ∧ g.commitIndex < matchIndex) ∧
      g' = { g with commitIndex := matchIndex } := by
  rw [get?_response, found, Option.map_some] at found'
  have same := Option.some.inj found'
  split at same
  · rename_i all
    obtain ⟨leader, role, ⟨ok, ahead⟩, enough⟩ := all
    exact ⟨⟨ok, leader, enough, role, ahead⟩, same.symm⟩
  · rw [same] at more
    omega

end

section
variable {nodes : ClusterNodes} {x sender term : UInt64} {inbound known success : Bool}
  {matchIndex : Nat}

/-- A response leaves every log as it is. -/
theorem stores_response {queue : String} {index : Nat} {entry : LogEntry RaftCommand}
    {y : UInt64} (stored : nodes.Stores queue index entry y) :
    (nodes.step (x, .frame sender inbound known
      (.appendEntriesResponse term success matchIndex))).Stores queue index entry y := by
  unfold Stores ClusterNodes.group step at *
  by_cases here : y = x
  · subst here
    rw [if_pos rfl]
    show ((((nodes y).handleAppendEntriesResponse success matchIndex).queueRaftGroups.get?
      queue).bind (·.log[index]?)) = some entry
    rw [get?_response]
    cases found : (nodes y).queueRaftGroups.get? queue with
    | none =>
      rw [found] at stored
      contradiction
    | some g =>
      rw [found, Option.bind_some] at stored
      rw [Option.map_some, Option.bind_some]
      split <;> exact stored
  · rw [if_neg here]
    exact stored

end

section
variable {leaderOf : String → UInt64 → UInt64} {s : LogTraffic} {x y : UInt64} {queue : String}
  {g : RaftQueueState} {index : Nat}

theorem within_of_took (founded : s.Founded leaderOf queue)
    (found : s.nodes.group x queue = some g) (leads : g.LedBy leaderOf queue x)
    (took : s.Took queue g.currentTerm index y) : index < g.log.length := by
  obtain ⟨⟨_, _, _, upTo⟩, member, ⟨rfl, rfl, rfl⟩, far⟩ := took
  obtain ⟨_, log, -, -, known, long, -⟩ := founded.taken _ _ _ member
  have within := ((founded.longest x g found leads).2 log known).length_le
  exact far.trans_lt (long.trans_le within)

theorem stores_of_took (founded : s.Founded leaderOf queue)
    (found : s.nodes.group x queue = some g) (leads : g.LedBy leaderOf queue x)
    (took : s.Took queue g.currentTerm index y) (still : s.InTerm queue g.currentTerm y)
    {entry : LogEntry RaftCommand} (own : g.log[index]? = some entry) :
    s.nodes.Stores queue index entry y := by
  obtain ⟨⟨_, _, _, upTo⟩, member, ⟨rfl, rfl, rfl⟩, far⟩ := took
  obtain ⟨g', log, found', -, known, long, taken⟩ := founded.taken _ _ _ member
  obtain ⟨g'', found'', term⟩ := Option.map_eq_some_iff.mp still
  cases found'.symm.trans found''
  have within := (founded.longest x g found leads).2 log known
  have both := congrArg (·[index]?) (taken term)
  have low : index < upTo + 1 := Nat.lt_succ_of_le far
  simp only [List.getElem?_take, low, if_true] at both
  change (s.nodes.group _ _).bind _ = _
  rw [found', Option.bind_some, both, ← prefix_getElem? within (lt_of_le_of_lt far long)]
  exact own

theorem stored_response {sender term : UInt64} {inbound known success : Bool} {matchIndex : Nat}
    {g' : RaftQueueState} (founded : s.Founded leaderOf queue)
    (reported : s.Reported leaderOf
      (x, .frame sender inbound known (.appendEntriesResponse term success matchIndex)))
    (found : s.nodes.group x queue = some g)
    (found' : (s.nodes.step (x, .frame sender inbound known
      (.appendEntriesResponse term success matchIndex))).group x queue = some g')
    (more : g.commitIndex < g'.commitIndex) :
    StoredOnMajority (s.nodes.step (x, .frame sender inbound known
      (.appendEntriesResponse term success matchIndex))) x queue g' g'.commitIndex := by
  rw [group_step_self] at found'
  obtain ⟨⟨ok, leader, enough, role, ahead⟩, rfl⟩ := response_advance found found' more
  obtain ⟨only, took, most⟩ := reported ok leader enough queue
    (FinMap.mem_keys_iff.mpr ⟨g, found⟩) g found role ahead
  have leads : g.LedBy leaderOf queue x := ⟨role, only⟩
  have inside := within_of_took founded found leads took
  have own : g.log[matchIndex]? = some g.log[matchIndex] := List.getElem?_eq_getElem inside
  have indexed : Indexed g.log := founded.history.indexed_copy (founded.copied x g found)
  have last : g.lastLogIndex + 1 = g.log.length :=
    Indexed.last indexed (List.length_pos_iff.mp (Nat.zero_lt_of_lt inside))
  have within : matchIndex ≤ g.lastLogIndex := by omega
  refine ⟨within, _, own, lt_of_lt_of_le most (Nat.mul_le_mul_left 2 (List.countP_mono_left ?_))⟩
  intro r member named
  simp only [decide_eq_true_eq] at named ⊢
  refine stores_response ?_
  rcases named with rfl | ⟨took', still⟩
  · change (s.nodes.group r queue).bind _ = _
    rw [found]
    exact own
  · exact stores_of_took founded found leads took' still own

end

/-- Any order of inputs at any nodes, in which every response that counts is reported by
    one that took the entries. -/
theorem commits_safely (leaderOf : String → UInt64 → UInt64)
    (es : List (UInt64 × ClusterInput))
    (regular : Run.Along (LogTraffic.step leaderOf)
      (fun s e => s.Disciplined leaderOf e ∧ s.Reported leaderOf e) LogTraffic.start es) :
    CommitsSafely es := by
  constructor
  rintro before x i after rfl response queue g g' found found' more
  obtain ⟨past, now, -⟩ := Run.along_append.mp regular
  have founded := founded_run leaderOf before (Run.along_mono (fun _ _ => And.left) past) queue
  have nodes : (Run.run (LogTraffic.step leaderOf) LogTraffic.start before).nodes =
      Run.run step start before :=
    Run.run_map (fun _ _ => rfl) LogTraffic.start before
  rw [Run.run_append] at found' ⊢
  rw [← nodes] at found found' ⊢
  cases i with
  | frame sender inbound known f =>
    cases f with
    | appendEntriesResponse term success matchIndex =>
      exact stored_response founded now.2 found found' more
    | _ => contradiction
  | _ => contradiction

/-- Node 1 leads two queues of three replicas. Node 3 takes the entry of `b`, and once it has
    answered node 2 takes that of `a`. -/
def twoQueues : List (UInt64 × ClusterInput) :=
  [(1, .frame 2 true false (.heartbeat 2)), (1, .frame 3 true false (.heartbeat 3)),
    (1, .task (.createGroup "b" 3)), (1, .task (.appendLocal "b" (.ack 5))),
    (3, .task (.createGroup "b" 1)),
    (3, .frame 1 true false (.appendEntries ⟨1, 1, 0, 0, [⟨1, 1, .ack 5⟩], 0⟩)),
    (1, .frame 3 true false (.appendEntriesResponse 1 true 1)),
    (1, .task (.createGroup "a" 3)), (1, .task (.appendLocal "a" (.ack 7))),
    (2, .task (.createGroup "a" 1)),
    (2, .frame 1 true false (.appendEntries ⟨1, 1, 0, 0, [⟨1, 1, .ack 7⟩], 0⟩)),
    (1, .frame 2 true false (.appendEntriesResponse 1 true 1))]

theorem commits_safely_replicated :
    (["a", "b"].map fun queue => ((Run.run step start twoQueues).group 1 queue).map
        (·.commitIndex)) = [some 1, some 1] ∧ CommitsSafely twoQueues := by
  refine ⟨by decide +kernel, ?_⟩
  exact commits_safely (fun _ _ => 1) twoQueues (by decide +kernel)

/-- Two connected nodes with a group for queue `a` at node 1. -/
def pairWithQueue : List (UInt64 × ClusterInput) :=
  [(1, .frame 2 true false (.heartbeat 2)), (2, .frame 1 true false (.heartbeat 1)),
    (1, .task (.createGroup "a" 2)), (1, .task (.appendLocal "a" (.ack 7)))]

/-- Queue `b` has no entries when the answer for queue `a` comes. -/
def otherQueue : List (UInt64 × ClusterInput) :=
  pairWithQueue ++ [(1, .task (.createGroup "b" 2))]

def withResponse : List (UInt64 × ClusterInput) :=
  otherQueue ++ [(1, .frame 2 true false (.appendEntriesResponse 1 true 1))]

theorem response_commits_other_queue :
    ((Run.run step start withResponse).group 1 "b").map
        (fun g => (g.commitIndex, g.lastLogIndex)) = some (1, 0) ∧
      ¬ CommitsSafely withResponse := by
  have before : ((Run.run step start otherQueue).group 1 "b").map (·.commitIndex) = some 0 := by
    decide +kernel
  have after : ((Run.run step start withResponse).group 1 "b").map
      (fun g => (g.commitIndex, g.lastLogIndex)) = some (1, 0) := by decide +kernel
  refine ⟨after, ?_⟩
  intro safe
  obtain ⟨g, found, none⟩ := Option.map_eq_some_iff.mp before
  obtain ⟨g', found', one⟩ := Option.map_eq_some_iff.mp after
  obtain ⟨committed, last⟩ := Prod.mk.inj one
  have stored := safe.advance otherQueue 1 _ [] rfl rfl "b" g g' found found' (by omega)
  have within := stored.within
  omega

end RocketmqBroker
