import RocketmqBroker.Cluster.Appending
import RocketmqBroker.Cluster.Coordinator

/-!
The logs of the quorum queues in a whole cluster. As long as one node leads a queue in each
term, and replicas take entries of that queue from it only, every log of the queue is the
beginning of one that some leader had, and what a replica has taken stays in its log until
it is in another term.
-/
namespace RocketmqBroker

abbrev ClusterNodes := UInt64 → Coordinator

namespace ClusterNodes

def start : ClusterNodes := Coordinator.new

def step (nodes : ClusterNodes) (e : UInt64 × ClusterInput) : ClusterNodes := fun y =>
  if y = e.1 then ((nodes e.1).react e.2).state else nodes y

def group (nodes : ClusterNodes) (x : UInt64) (queue : String) : Option RaftQueueState :=
  (nodes x).queueRaftGroups.get? queue

end ClusterNodes

/-- The log of a queue as its leader had it at some moment of a term. -/
structure LedLog where
  queue : String
  term : UInt64
  log : List (LogEntry RaftCommand)
  deriving DecidableEq

/-- Entries of a queue that a node took in a term, up to an index. -/
structure Taking where
  node : UInt64
  queue : String
  term : UInt64
  upTo : Nat
  deriving DecidableEq

def RaftQueueState.LedBy (g : RaftQueueState) (leaderOf : String → UInt64 → UInt64)
    (queue : String) (x : UInt64) : Prop :=
  g.role = .leader ∧ leaderOf queue g.currentTerm = x

instance (g : RaftQueueState) (leaderOf : String → UInt64 → UInt64) (queue : String)
    (x : UInt64) : Decidable (g.LedBy leaderOf queue x) := inferInstanceAs (Decidable (_ ∧ _))

namespace Coordinator

def ledLogs (c : Coordinator) (leaderOf : String → UInt64 → UInt64) (x : UInt64) : List LedLog :=
  (c.queueRaftGroups.entries.filter fun e => e.2.LedBy leaderOf e.1 x).map fun e =>
    ⟨e.1, e.2.currentTerm, e.2.log⟩

def takings (c : Coordinator) (x : UInt64) : ClusterInput → List Taking
  | .frame _ _ _ (.appendEntries f) =>
    if f.term < c.currentTerm ∨ f.entries = [] then []
    else (c.queueRaftGroups.entries.filter fun e => e.2.Accepts f).map fun e =>
      ⟨x, e.1, f.term, f.prevLogIndex + f.entries.length⟩
  | _ => []

end Coordinator

/-- The nodes, the logs that leaders have had, and what replicas have taken of them. -/
structure LogTraffic where
  nodes : ClusterNodes
  led : List LedLog
  takings : List Taking

instance {f : AppendEntries RaftCommand} {leader : List (LogEntry RaftCommand)} {m : Nat} :
    Decidable (f.DrawnFrom leader m) :=
  decidable_of_iff (f.prevLogIndex + m < leader.length ∧
    leader[f.prevLogIndex]?.map LogEntry.term = some f.prevLogTerm ∧
    f.entries = (leader.drop (f.prevLogIndex + 1)).take m)
    ⟨fun ⟨inside, prevTerm, entries⟩ => ⟨inside, prevTerm, entries⟩,
      fun ⟨inside, prevTerm, entries⟩ => ⟨inside, prevTerm, entries⟩⟩

namespace LogTraffic

def start : LogTraffic := ⟨ClusterNodes.start, [], []⟩

def step (leaderOf : String → UInt64 → UInt64) (s : LogTraffic) (e : UInt64 × ClusterInput) :
    LogTraffic where
  nodes := s.nodes.step e
  led := s.led ++ (s.nodes.step e e.1).ledLogs leaderOf e.1
  takings := s.takings ++ (s.nodes e.1).takings e.1 e.2

/-- A node makes the group of a queue once, only the leader of the term appends to its log, only
    what a leader of the term had is taken into another log, and terms do not wrap. -/
def Disciplined (leaderOf : String → UInt64 → UInt64) (s : LogTraffic) :
    UInt64 × ClusterInput → Prop
  | (x, .task (.createGroup queue _)) => (s.nodes.group x queue).isNone = true
  | (x, .task (.appendLocal queue _)) =>
    ∀ g ∈ s.nodes.group x queue, g.role = .leader → leaderOf queue g.currentTerm = x
  | (x, .task (.peerDown _)) | (x, .frame _ _ _ (.nodeDown _ _)) =>
    ∀ queue ∈ (s.nodes x).queueRaftGroups.keys, ∀ g ∈ s.nodes.group x queue,
      g.currentTerm < g.currentTerm + 1
  | (x, .frame _ _ _ (.appendEntries f)) =>
    ¬ f.term < (s.nodes x).currentTerm → f.entries ≠ [] →
      ∀ queue ∈ (s.nodes x).queueRaftGroups.keys, ∀ g ∈ s.nodes.group x queue, g.Accepts f →
        ∃ l ∈ s.led, (l.queue = queue ∧ l.term = f.term) ∧ f.DrawnFrom l.log f.entries.length
  | _ => True

instance (leaderOf : String → UInt64 → UInt64) (s : LogTraffic) (e : UInt64 × ClusterInput) :
    Decidable (Disciplined leaderOf s e) := by
  obtain ⟨x, t | ⟨_, _, _, f⟩ | _⟩ := e
  · apply ClusterTask.casesOn (motive := fun t => Decidable (Disciplined leaderOf s (x, .task t))) t
      <;> intros <;> dsimp only [Disciplined] <;> infer_instance
  · apply ClusterFrame.casesOn
      (motive := fun f => Decidable (Disciplined leaderOf s (x, .frame _ _ _ f))) f <;>
      intros <;> dsimp only [Disciplined] <;> infer_instance
  · exact isTrue trivial

end LogTraffic

def rootEntry : LogEntry RaftCommand := ⟨0, 0, .ack 0⟩

structure TakesEntries (led : List LedLog) (queue : String) (f : AppendEntries RaftCommand)
    (g g' : RaftQueueState) : Prop where
  drawn : ∃ log, ⟨queue, f.term, log⟩ ∈ led ∧ f.DrawnFrom log f.entries.length
  accepts : g.Accepts f
  role : g'.role = .follower
  term : g'.currentTerm = f.term
  log : g'.log = f.entries.foldl RaftState.appendEntry g.log

/-- A step at a node, as far as the group of one queue goes. -/
inductive GroupMoves (leaderOf : String → UInt64 → UInt64) (led : List LedLog) (x : UInt64)
    (queue : String) : Option RaftQueueState → Option RaftQueueState → Prop
  | absent : GroupMoves leaderOf led x queue none none
  | created {g' : RaftQueueState} :
      g'.log = [rootEntry] → GroupMoves leaderOf led x queue none (some g')
  | kept {g g' : RaftQueueState} :
      g'.log = g.log → g.currentTerm ≤ g'.currentTerm →
        (g'.role = .leader → g.role = .leader ∨ g.currentTerm < g'.currentTerm) →
          GroupMoves leaderOf led x queue (some g) (some g')
  | appended {g g' : RaftQueueState} {command : RaftCommand} :
      g.LedBy leaderOf queue x → g'.role = .leader → g'.currentTerm = g.currentTerm →
        g'.log = g.log ++ [⟨g.lastLogIndex + 1, g.currentTerm, command⟩] →
          GroupMoves leaderOf led x queue (some g) (some g')
  | took {g g' : RaftQueueState} {f : AppendEntries RaftCommand} :
      TakesEntries led queue f g g' → GroupMoves leaderOf led x queue (some g) (some g')

/-- The leaders' logs of a queue: those of one term are one that grows, and each entry was in
    a log of the leader of its term, behind the same entries. -/
structure LogHistory (led : List LedLog) (queue : String) : Prop where
  indexed : ∀ t log, ⟨queue, t, log⟩ ∈ led → Indexed log
  based : ∀ t log, ⟨queue, t, log⟩ ∈ led → log[0]? = some rootEntry
  growing : ∀ t log log', ⟨queue, t, log⟩ ∈ led → ⟨queue, t, log'⟩ ∈ led →
    log <+: log' ∨ log' <+: log
  origin : ∀ t log, ⟨queue, t, log⟩ ∈ led → ∀ i e, 0 < i → log[i]? = some e →
    ∃ log', ⟨queue, e.term, log'⟩ ∈ led ∧ i < log'.length ∧ log'.take (i + 1) = log.take (i + 1)

structure Copies (led : List LedLog) (queue : String) (log : List (LogEntry RaftCommand)) :
    Prop where
  based : log[0]? = some rootEntry
  source : log = [rootEntry] ∨ ∃ t log', ⟨queue, t, log'⟩ ∈ led ∧ log <+: log'

section
variable {led led' : List LedLog} {queue : String} {t : UInt64}
  {log log' leader : List (LogEntry RaftCommand)}

theorem Copies.mono (h : Copies led queue log) (more : led ⊆ led') : Copies led' queue log := by
  refine ⟨h.based, h.source.imp_right ?_⟩
  rintro ⟨t, source, known, within⟩
  exact ⟨t, source, more known, within⟩

theorem take_one_of_based {κ : Type} {e : LogEntry κ} {log : List (LogEntry κ)}
    (based : log[0]? = some e) : log.take 1 = [e] := by
  rw [take_succ_eq based]
  rfl

theorem take_eq_of_comparable {α : Type} {xs ys : List α} (comparable : xs <+: ys ∨ ys <+: xs)
    {n : Nat} (first : n ≤ xs.length) (second : n ≤ ys.length) : xs.take n = ys.take n := by
  rcases comparable with ⟨rest, rfl⟩ | ⟨rest, rfl⟩
  · exact (List.take_append_of_le_length first).symm
  · exact List.take_append_of_le_length second

theorem take_of_within {α : Type} {xs ys : List α} (within : xs <+: ys) {n : Nat}
    (inside : n ≤ xs.length) : xs.take n = ys.take n :=
  take_eq_of_comparable (.inl within) inside (inside.trans within.length_le)

namespace LogHistory

/-- Log matching. -/
theorem agree (h : LogHistory led queue) {t' : UInt64} (here : ⟨queue, t, log⟩ ∈ led)
    (there : ⟨queue, t', log'⟩ ∈ led) {i : Nat} {e e' : LogEntry RaftCommand}
    (found : log[i]? = some e) (found' : log'[i]? = some e') (same : e.term = e'.term) :
    log.take (i + 1) = log'.take (i + 1) := by
  rcases Nat.eq_zero_or_pos i with rfl | positive
  · rw [take_one_of_based (h.based t log here), take_one_of_based (h.based t' log' there)]
  · obtain ⟨first, led₁, long₁, agree₁⟩ := h.origin t log here i e positive found
    obtain ⟨second, led₂, long₂, agree₂⟩ := h.origin t' log' there i e' positive found'
    rw [← same] at led₂
    rw [← agree₁, ← agree₂]
    exact take_eq_of_comparable (h.growing _ _ _ led₁ led₂) long₁ long₂

theorem termsTell (h : LogHistory led queue) (copies : Copies led queue log)
    (leads : ⟨queue, t, leader⟩ ∈ led) : TermsTell log leader := by
  intro i old e found here same
  rcases copies.source with only | ⟨t', source, there, within⟩
  · have inside := (List.getElem?_eq_some_iff.mp found).1
    rw [only, List.length_singleton] at inside
    obtain rfl : i = 0 := by omega
    rw [take_one_of_based copies.based, take_one_of_based (h.based t leader leads)]
  · have inside := (List.getElem?_eq_some_iff.mp found).1
    have old' : source[i]? = some old := (prefix_getElem? within inside).trans found
    rw [take_of_within within inside]
    exact h.agree there leads old' here same

theorem indexed_copy (h : LogHistory led queue) (copies : Copies led queue log) : Indexed log := by
  intro i e found
  rcases copies.source with rfl | ⟨t, source, there, within⟩
  · have inside := (List.getElem?_eq_some_iff.mp found).1
    rw [List.length_singleton] at inside
    obtain rfl : i = 0 := by omega
    cases found
    rfl
  · have inside := (List.getElem?_eq_some_iff.mp found).1
    exact h.indexed t source there i e ((prefix_getElem? within inside).trans found)

theorem origin_copy (h : LogHistory led queue) (copies : Copies led queue log) {i : Nat}
    {e : LogEntry RaftCommand} (positive : 0 < i) (found : log[i]? = some e) :
    ∃ log', ⟨queue, e.term, log'⟩ ∈ led ∧ i < log'.length ∧
      log'.take (i + 1) = log.take (i + 1) := by
  have inside := (List.getElem?_eq_some_iff.mp found).1
  rcases copies.source with rfl | ⟨t, source, there, within⟩
  · rw [List.length_singleton] at inside
    omega
  · obtain ⟨log', leads, long, same⟩ := h.origin t source there i e positive
      ((prefix_getElem? within inside).trans found)
    exact ⟨log', leads, long, same.trans (take_of_within within inside).symm⟩

end LogHistory

/-- What a frame does to a log of the queue: it goes on as one that a leader had, agrees with
    the leader over the frame, and keeps what it had of the same term. -/
theorem copies_taken (h : LogHistory led queue) {g : RaftQueueState}
    (copies : Copies led queue g.log) {f : AppendEntries RaftCommand}
    (leads : ⟨queue, f.term, leader⟩ ∈ led) (drawn : f.DrawnFrom leader f.entries.length)
    (accepts : g.Accepts f) :
    let log' := f.entries.foldl RaftState.appendEntry g.log
    Copies led queue log' ∧
      log'.take (f.prevLogIndex + f.entries.length + 1) =
        leader.take (f.prevLogIndex + f.entries.length + 1) ∧
      ∀ known upTo, ⟨queue, f.term, known⟩ ∈ led → upTo < known.length →
        g.log.take (upTo + 1) = known.take (upTo + 1) →
          log'.take (upTo + 1) = known.take (upTo + 1) := by
  intro log'
  have tell := h.termsTell copies leads
  have inside := drawn.inside
  obtain ⟨reaches, agree⟩ := agree_of_accepts copies.based (h.based _ _ leads) tell drawn accepts
  have shape := foldl_of_leader (h.indexed _ _ leads) f.entries tell agree reaches
    (by rw [drawn.entries]; exact List.take_prefix _ _)
  rw [show f.prevLogIndex + 1 + f.entries.length = f.prevLogIndex + f.entries.length + 1 by omega]
    at shape
  rcases shape with ⟨same, -, whole⟩ | ⟨ends, changed⟩
  · have same : log' = g.log := same
    rw [same]
    exact ⟨copies, whole, fun known upTo _ _ kept => kept⟩
  · have ends : log' = leader.take (f.prevLogIndex + f.entries.length + 1) := ends
    have size : log'.length = f.prevLogIndex + f.entries.length + 1 := by
      rw [ends, List.length_take]
      omega
    have within : log' <+: leader := ends ▸ List.take_prefix _ _
    refine ⟨⟨?_, .inr ⟨_, leader, leads, within⟩⟩, ?_, ?_⟩
    · rw [← prefix_getElem? within (by omega)]
      exact h.based _ _ leads
    · rw [ends, List.take_take, Nat.min_self]
    · intro known upTo leads' long kept
      have comparable := h.growing _ _ _ leads leads'
      -- the log is not cut before what the two leaders' logs have in common
      have reachesIt : upTo < log'.length := by
        rcases changed with grown | ⟨j, -, below, departs⟩
        · have longer := congrArg List.length kept
          have grows : g.log.length ≤ log'.length := grown.length_le
          rw [List.length_take, List.length_take] at longer
          omega
        · obtain ⟨old, e, found, here, conflict⟩ := departs.here
          by_contra short
          have low : j < upTo + 1 := by omega
          have known' : known[j]? = some old := by
            have at_j := congrArg (·[j]?) kept
            simp only [List.getElem?_take, low, if_true] at at_j
            rw [← at_j, found]
          have both := congrArg (·[j]?) (take_eq_of_comparable comparable (n := j + 1)
            (List.getElem?_eq_some_iff.mp here).1 (List.getElem?_eq_some_iff.mp known').1)
          simp only [List.getElem?_take, Nat.lt_succ_self, if_true] at both
          rw [here, known'] at both
          cases both
          exact conflict rfl
      rw [take_of_within within reachesIt]
      exact take_eq_of_comparable comparable (reachesIt.trans_le within.length_le) long

end

namespace LogTraffic

/-- What is known of a queue: where the logs of its groups come from, which of them is the
    leader's, and that what was taken in a term is there for the rest of it. -/
structure Founded (leaderOf : String → UInt64 → UInt64) (s : LogTraffic) (queue : String) :
    Prop where
  history : LogHistory s.led queue
  copied : ∀ x g, s.nodes.group x queue = some g → Copies s.led queue g.log
  owned : ∀ t log, ⟨queue, t, log⟩ ∈ s.led →
    ∃ g, s.nodes.group (leaderOf queue t) queue = some g ∧ t ≤ g.currentTerm
  longest : ∀ x g, s.nodes.group x queue = some g → g.LedBy leaderOf queue x →
    ⟨queue, g.currentTerm, g.log⟩ ∈ s.led ∧
      ∀ log, ⟨queue, g.currentTerm, log⟩ ∈ s.led → log <+: g.log
  taken : ∀ x t upTo, ⟨x, queue, t, upTo⟩ ∈ s.takings →
    ∃ g log, s.nodes.group x queue = some g ∧ t ≤ g.currentTerm ∧ ⟨queue, t, log⟩ ∈ s.led ∧
      upTo < log.length ∧ (g.currentTerm = t → g.log.take (upTo + 1) = log.take (upTo + 1))

end LogTraffic

namespace GroupMoves
variable {leaderOf : String → UInt64 → UInt64} {led : List LedLog} {x : UInt64} {queue : String}
  {before after : Option RaftQueueState} {g g' : RaftQueueState}

theorem later (moves : GroupMoves leaderOf led x queue (some g) after) :
    ∃ g', after = some g' ∧ g.currentTerm ≤ g'.currentTerm := by
  cases moves with
  | kept _ newer _ => exact ⟨_, rfl, newer⟩
  | appended _ _ term _ => exact ⟨_, rfl, term ▸ UInt64.le_refl _⟩
  | took takes => exact ⟨_, rfl, takes.term ▸ UInt64.not_lt.mp takes.accepts.1⟩

end GroupMoves

namespace LogTraffic.Founded
variable {leaderOf : String → UInt64 → UInt64} {s : LogTraffic} {x : UInt64} {queue : String}
  {g g' : RaftQueueState}

theorem longer (h : s.Founded leaderOf queue)
    (moves : GroupMoves leaderOf s.led x queue (s.nodes.group x queue) (some g'))
    (leads : g'.LedBy leaderOf queue x) {log : List (LogEntry RaftCommand)}
    (known : ⟨queue, g'.currentTerm, log⟩ ∈ s.led) : log <+: g'.log := by
  obtain ⟨g, here, reached⟩ := h.owned _ _ known
  rw [leads.2] at here
  rw [here] at moves
  cases moves with
  | kept same newer role =>
    rcases role leads.1 with led | higher
    · have term : g.currentTerm = g'.currentTerm := UInt64.le_antisymm newer reached
      rw [← term] at known
      rw [same]
      exact (h.longest x g here ⟨led, term ▸ leads.2⟩).2 log known
    · exact absurd reached (UInt64.not_le.mpr higher)
  | appended led _ term more =>
    rw [term] at known
    rw [more]
    exact ((h.longest x g here led).2 log known).trans (List.prefix_append _ _)
  | took takes =>
    have follows := takes.role
    rw [leads.1] at follows
    cases follows

/-- The log of a group that leads after a step belongs to the leaders' logs. -/
theorem fits (h : s.Founded leaderOf queue)
    (moves : GroupMoves leaderOf s.led x queue (s.nodes.group x queue) (some g'))
    (leads : g'.LedBy leaderOf queue x) {led : List LedLog} (more : s.led ⊆ led)
    (noted : ⟨queue, g'.currentTerm, g'.log⟩ ∈ led) :
    Indexed g'.log ∧ g'.log[0]? = some rootEntry ∧ ∀ i e, 0 < i → g'.log[i]? = some e →
      ∃ log, ⟨queue, e.term, log⟩ ∈ led ∧ i < log.length ∧
        log.take (i + 1) = g'.log.take (i + 1) := by
  have copy {log : List (LogEntry RaftCommand)} (copies : Copies s.led queue log) :
      Indexed log ∧ log[0]? = some rootEntry ∧ ∀ i e, 0 < i → log[i]? = some e →
        ∃ log', ⟨queue, e.term, log'⟩ ∈ led ∧ i < log'.length ∧
          log'.take (i + 1) = log.take (i + 1) := by
    refine ⟨h.history.indexed_copy copies, copies.based, fun i e positive found => ?_⟩
    obtain ⟨log', known, long, same⟩ := h.history.origin_copy copies positive found
    exact ⟨log', more known, long, same⟩
  generalize before : s.nodes.group x queue = found at moves
  cases moves with
  | created root => exact copy ⟨by rw [root]; rfl, .inl root⟩
  | @kept g _ same _ _ =>
    rw [same]
    exact copy (h.copied x g before)
  | @appended g _ command led _ term log =>
    obtain ⟨indexed, based, origin⟩ := copy (h.copied x g before)
    have filled : g.log ≠ [] := fun empty => by
      rw [empty] at based
      cases based
    have last : g.lastLogIndex + 1 = g.log.length := indexed.last filled
    have inside := List.length_pos_iff.mpr filled
    rw [log]
    refine ⟨indexed.append last, ?_, fun i e positive found => ?_⟩
    · rw [List.getElem?_append_left inside]
      exact based
    · rw [List.getElem?_append] at found
      split at found
      · rename_i low
        obtain ⟨log', known, long, same⟩ := origin i e positive found
        exact ⟨log', known, long, by rw [List.take_append_of_le_length low, same]⟩
      · rename_i high
        rw [List.getElem?_singleton] at found
        split at found
        · cases found
          rw [term, log] at noted
          refine ⟨_, noted, ?_, rfl⟩
          rw [List.length_append, List.length_singleton]
          omega
        · cases found
  | took takes =>
    have follows := takes.role
    rw [leads.1] at follows
    cases follows

end LogTraffic.Founded

/-! Groups and the inputs of their node. -/

def ClusterInput.movesGroups : ClusterInput → Bool
  | .task (.createGroup _ _) | .task (.appendLocal _ _) | .task (.peerDown _) => true
  | .frame _ _ _ (.nodeDown _ _) | .frame _ _ _ (.appendEntries _)
  | .frame _ _ _ (.appendEntriesResponse _ _ _) => true
  | _ => false

section
variable {c : Coordinator}

theorem groups_startElection : c.startElection.state.queueRaftGroups = c.queueRaftGroups := by
  unfold Coordinator.startElection
  dsimp only
  split <;> rfl

theorem groups_poll (k : Nat) (expired : Bool) :
    (c.poll k expired).state.queueRaftGroups = c.queueRaftGroups := by
  unfold Coordinator.poll
  split
  · rfl
  · split
    · rfl
    · split <;> rfl
  · rfl
  · split
    · rfl
    · split
      · rfl
      · split <;> rfl

theorem groups_replicate (msgId : UInt64) (f : ClusterFrame) :
    (c.replicate msgId f).state.queueRaftGroups = c.queueRaftGroups := by
  unfold Coordinator.replicate
  dsimp only
  split <;> rfl

theorem groups_voteReplication (msgId : UInt64) :
    (c.voteReplication msgId).state.queueRaftGroups = c.queueRaftGroups := by
  unfold Coordinator.voteReplication
  split
  · rfl
  · dsimp only
    split
    · split <;> rfl
    · rfl

theorem groups_acceptTerm (term leaderId : UInt64) :
    (c.acceptTerm term leaderId).1.queueRaftGroups = c.queueRaftGroups := by
  unfold Coordinator.acceptTerm
  split
  · rfl
  · split <;> rfl

theorem groups_react {i : ClusterInput} (other : i.movesGroups = false) :
    (c.react i).state.queueRaftGroups = c.queueRaftGroups := by
  cases i with
  | closed peer =>
    unfold Coordinator.react
    dsimp only
    split
    · exact groups_startElection
    · rfl
  | task t =>
    cases t with
    | createGroup | appendLocal | peerDown => cases other
    | electionTimeout =>
      change (if _ then c.startElection else _ : Reaction).state.queueRaftGroups = _
      split
      · exact groups_startElection
      · rfl
    | poll k expired => exact groups_poll k expired
    | publish queue msgId body => exact groups_replicate msgId _
    | ack queue msgId => exact groups_replicate msgId _
    | leaderHeartbeat | callReturns => rfl
  | frame sender inbound known f =>
    cases f with
    | nodeDown | appendEntries | appendEntriesResponse => cases other
    | preVoteResponse term granted => cases granted <;> rfl
    | requestVote term candidateId =>
      change (c.handleRequestVote term candidateId).1.queueRaftGroups = _
      unfold Coordinator.handleRequestVote
      split
      · rfl
      · dsimp only
        split <;> split <;> rfl
    | requestVoteResponse term granted =>
      change (c.handleRequestVoteResponse term granted).queueRaftGroups = _
      unfold Coordinator.handleRequestVoteResponse
      split
      · rfl
      · split <;> rfl
    | leaderHeartbeat term leaderId =>
      change (c.handleLeaderHeartbeat term leaderId).queueRaftGroups = _
      unfold Coordinator.handleLeaderHeartbeat
      split <;> rfl
    | replicatePublish term leaderId _ _ _ => exact groups_acceptTerm term leaderId
    | replicateAck term leaderId _ _ => exact groups_acceptTerm term leaderId
    | replicateResponse term msgId success =>
      change (if _ then c.voteReplication msgId else _ : Reaction).state.queueRaftGroups = _
      split
      · exact groups_voteReplication msgId
      · rfl
    | heartbeat | preVote => rfl

theorem get?_offerEntries (f : AppendEntries RaftCommand) {names : List String}
    (distinct : names.Nodup) (groups : FinMap String RaftQueueState) (answer : Nat × Bool)
    (fine : ∀ name ∈ names, ∀ g ∈ groups.get? name, (g.handleAppendEntries f).2 ≠ none)
    (queue : String) : (Coordinator.offerEntries f names groups answer).1.get? queue =
      if queue ∈ names then (groups.get? queue).map fun g => (g.handleAppendEntries f).1
      else groups.get? queue := by
  induction names generalizing groups answer with
  | nil => rfl
  | cons name names ih =>
    obtain ⟨fresh, distinct⟩ := List.nodup_cons.mp distinct
    obtain ⟨first, rest⟩ := List.forall_mem_cons.mp fine
    unfold Coordinator.offerEntries
    cases found : groups.get? name with
    | none =>
      dsimp only
      rw [ih distinct groups answer rest]
      by_cases same : queue = name
      · subst same
        rw [if_neg fresh, if_pos List.mem_cons_self, found]
        rfl
      · simp only [List.mem_cons, same, false_or]
    | some g =>
      dsimp only
      cases answered : (g.handleAppendEntries f).2 with
      | none => exact absurd answered (first g found)
      | some response =>
        dsimp only
        have rest' : ∀ other ∈ names, ∀ g' ∈ (groups.insert name
            (g.handleAppendEntries f).1).get? other, (g'.handleAppendEntries f).2 ≠ none := by
          intro other member g' there
          have apart : other ≠ name := fun same => fresh (same ▸ member)
          rw [Option.mem_def, FinMap.get?_insert, if_neg apart] at there
          exact rest other member g' there
        rw [ih distinct _ _ rest', FinMap.get?_insert]
        by_cases same : queue = name
        · subst same
          rw [if_neg fresh, if_pos rfl, if_pos List.mem_cons_self, found]
          rfl
        · simp only [List.mem_cons, same, false_or, if_false]

theorem get?_response :
    (c.handleAppendEntriesResponse success matchIndex).queueRaftGroups.get? queue =
    (c.queueRaftGroups.get? queue).map fun g =>
      if c.isLeader = true ∧ g.role = .leader ∧ (success = true ∧ matchIndex > g.commitIndex) ∧
        (c.quorum ≤ 2 ∨ c.peers.isEmpty = true)
      then { g with commitIndex := matchIndex } else g := by
  unfold Coordinator.handleAppendEntriesResponse
  by_cases leader : c.isLeader = true
  · simp only [leader, Bool.not_true, Bool.false_eq_true, if_false, FinMap.get?_mapVals]
    congr 1
    funext g
    by_cases role : g.role = .leader
    · by_cases ahead : success = true ∧ matchIndex > g.commitIndex
      · simp [role, ahead]
      · simp [role, ahead]
    · simp [role]
  · simp [leader]

theorem get?_appendEntries {f : AppendEntries RaftCommand} (current : ¬ f.term < c.currentTerm)
    (filled : f.entries ≠ []) {queue : String}
    (fine : ∀ name g, c.queueRaftGroups.get? name = some g → (g.handleAppendEntries f).2 ≠ none) :
    (c.handleAppendEntries f).1.queueRaftGroups.get? queue =
      (c.queueRaftGroups.get? queue).map fun g => (g.handleAppendEntries f).1 := by
  have some_left : f.entries.isEmpty = false := by
    rw [List.isEmpty_eq_false_iff]
    exact filled
  unfold Coordinator.handleAppendEntries
  rw [if_neg current]
  dsimp only
  rw [some_left, if_neg Bool.false_ne_true]
  refine (get?_offerEntries f (FinMap.keys_nodup _) _ _
    (fun name _ g there => fine name g there) queue).trans ?_
  split
  · rfl
  · rename_i missing
    cases found : c.queueRaftGroups.get? queue with
    | none => rfl
    | some g => exact absurd (FinMap.mem_keys_iff.mpr ⟨g, found⟩) missing

end

theorem appendLocalCommand_leader {g : RaftQueueState} (command : RaftCommand)
    (leader : g.role = .leader) : (g.appendLocalCommand command).1 =
      { g with log := g.log ++ [⟨g.lastLogIndex + 1, g.currentTerm, command⟩] } := by
  unfold RaftQueueState.appendLocalCommand RaftState.appendCommand
  rw [if_neg (not_not.mpr leader)]

theorem appendLocalCommand_other {g : RaftQueueState} (command : RaftCommand)
    (other : g.role ≠ .leader) : (g.appendLocalCommand command).1 = g := by
  unfold RaftQueueState.appendLocalCommand RaftState.appendCommand
  rw [if_pos other]

theorem advanceCommit_role {κ : Type} (r : RaftState κ) (leaderCommit : Nat) :
    (r.advanceCommit leaderCommit).role = r.role := by
  unfold RaftState.advanceCommit
  split <;> rfl

theorem advanceCommit_currentTerm {κ : Type} (r : RaftState κ) (leaderCommit : Nat) :
    (r.advanceCommit leaderCommit).currentTerm = r.currentTerm := by
  unfold RaftState.advanceCommit
  split <;> rfl

theorem handleAppendEntries_role {κ : Type} {r : RaftState κ} {f : AppendEntries κ}
    (current : ¬ f.term < r.currentTerm) : (r.handleAppendEntries f).1.role = .follower := by
  unfold RaftState.handleAppendEntries
  rw [if_neg current]
  dsimp only
  split
  · rfl
  · rfl
  · exact advanceCommit_role _ _

section
variable {leaderOf : String → UInt64 → UInt64} {led : List LedLog} {x : UInt64} {queue : String}
  {c : Coordinator}

theorem moves_kept {group : Option RaftQueueState} {change : RaftQueueState → RaftQueueState}
    (log : ∀ g, (change g).log = g.log)
    (newer : ∀ g, group = some g → g.currentTerm ≤ (change g).currentTerm)
    (role : ∀ g, group = some g → (change g).role = .leader →
      g.role = .leader ∨ g.currentTerm < (change g).currentTerm) :
    GroupMoves leaderOf led x queue group (group.map change) := by
  cases group with
  | none => exact .absent
  | some g => exact .kept (log g) (newer g rfl) (role g rfl)

theorem moves_same {group : Option RaftQueueState} :
    GroupMoves leaderOf led x queue group group := by
  cases group with
  | none => exact .absent
  | some g => exact .kept rfl (UInt64.le_refl _) .inl

theorem moves_createGroup {name : String} (size : Nat)
    (missing : c.queueRaftGroups.get? name = none) :
    GroupMoves leaderOf led x queue (c.queueRaftGroups.get? queue)
      ((c.createQueueRaftGroup name size).queueRaftGroups.get? queue) := by
  unfold Coordinator.createQueueRaftGroup
  rw [FinMap.get?_insert]
  split
  · rename_i same
    rw [same, missing]
    exact .created rfl
  · exact moves_same

theorem moves_appendLocal {name : String} (command : RaftCommand)
    (leads : ∀ g, c.queueRaftGroups.get? name = some g → g.role = .leader →
      leaderOf name g.currentTerm = x) :
    GroupMoves leaderOf led x queue (c.queueRaftGroups.get? queue)
      ((c.queueRaftGroups.modify name fun g => (g.appendLocalCommand command).1).get? queue) := by
  rw [FinMap.get?_modify]
  split
  · rename_i same
    subst same
    cases found : c.queueRaftGroups.get? queue with
    | none => exact .absent
    | some g =>
      by_cases leader : g.role = .leader
      · rw [Option.map_some, appendLocalCommand_leader command leader]
        exact .appended ⟨leader, leads g found leader⟩ leader rfl rfl
      · rw [Option.map_some, appendLocalCommand_other command leader]
        exact moves_same
  · exact moves_same

theorem moves_failover (downed : UInt64)
    (climbs : ∀ g, c.queueRaftGroups.get? queue = some g → g.currentTerm < g.currentTerm + 1) :
    GroupMoves leaderOf led x queue (c.queueRaftGroups.get? queue)
      ((c.failoverQueuesForNode downed).queueRaftGroups.get? queue) := by
  unfold Coordinator.failoverQueuesForNode
  rw [FinMap.get?_mapVals]
  refine moves_kept (fun g => ?_) (fun g found => ?_) fun g found leads => ?_
  · split <;> rfl
  · split
    · exact UInt64.le_refl _
    · exact UInt64.le_of_lt (climbs g found)
  · split at leads
    · exact .inl leads
    · rename_i down
      rw [if_neg down]
      exact .inr (climbs g found)

theorem moves_response (success : Bool) (matchIndex : Nat) :
    GroupMoves leaderOf led x queue (c.queueRaftGroups.get? queue)
      ((c.handleAppendEntriesResponse success matchIndex).queueRaftGroups.get? queue) := by
  rw [get?_response]
  refine moves_kept (fun g => ?_) (fun g _ => ?_) fun g _ leads => ?_
  · split <;> rfl
  · split <;> exact UInt64.le_refl _
  · split at leads
    · exact .inl leads
    · exact .inl leads

theorem takes_entries {f : AppendEntries RaftCommand} {g : RaftQueueState} (accepts : g.Accepts f)
    (drawn : ∃ l ∈ led, (l.queue = queue ∧ l.term = f.term) ∧
      f.DrawnFrom l.log f.entries.length) :
    TakesEntries led queue f g (g.handleAppendEntries f).1 := by
  rcases g.toRaftState.handleAppendEntries_cases f with ⟨-, refused, -⟩ | ⟨-, log, -, -, term⟩
  · exact absurd accepts refused
  · obtain ⟨l, here, ⟨rfl, same⟩, inside⟩ := drawn
    refine ⟨⟨l.log, ?_, inside⟩, accepts, handleAppendEntries_role accepts.1, term, log⟩
    rw [← same]
    exact here

theorem moves_entries {f : AppendEntries RaftCommand} {g : RaftQueueState}
    (drawn : g.Accepts f → ∃ l ∈ led, (l.queue = queue ∧ l.term = f.term) ∧
      f.DrawnFrom l.log f.entries.length) :
    GroupMoves leaderOf led x queue (some g) (some (g.handleAppendEntries f).1) := by
  rcases g.toRaftState.handleAppendEntries_cases f with ⟨⟨log, -⟩, -, later⟩ | ⟨accepts, -⟩
  · refine .kept log later fun leads => ?_
    by_cases stale : f.term < g.currentTerm
    · have same : g.toRaftState.handleAppendEntries f =
          (g.toRaftState, some (g.currentTerm, false)) := if_pos stale
      change (g.toRaftState.handleAppendEntries f).1.role = .leader at leads
      rw [same] at leads
      exact .inl leads
    · have follows : (g.handleAppendEntries f).1.role = .follower := handleAppendEntries_role stale
      rw [leads] at follows
      cases follows
  · exact .took (takes_entries accepts (drawn accepts))

theorem moves_appendEntries {f : AppendEntries RaftCommand}
    (fine : ∀ name g, c.queueRaftGroups.get? name = some g → (g.handleAppendEntries f).2 ≠ none)
    (drawn : ¬ f.term < c.currentTerm → f.entries ≠ [] →
      ∀ g, c.queueRaftGroups.get? queue = some g → g.Accepts f →
        ∃ l ∈ led, (l.queue = queue ∧ l.term = f.term) ∧
          f.DrawnFrom l.log f.entries.length) :
    GroupMoves leaderOf led x queue (c.queueRaftGroups.get? queue)
      ((c.handleAppendEntries f).1.queueRaftGroups.get? queue) := by
  by_cases stale : f.term < c.currentTerm
  · unfold Coordinator.handleAppendEntries
    rw [if_pos stale]
    exact moves_same
  · by_cases empty : f.entries = []
    · unfold Coordinator.handleAppendEntries
      rw [if_neg stale, empty]
      dsimp only [List.isEmpty_nil, if_true]
      rw [if_pos rfl, FinMap.get?_mapVals]
      refine moves_kept (fun g => ?_) (fun g _ => ?_) fun g _ leads => ?_
      · exact RaftState.advanceCommit_log _ _
      · exact (advanceCommit_currentTerm _ _).symm ▸ UInt64.le_refl _
      · exact .inl ((advanceCommit_role _ _).symm.trans leads)
    · rw [get?_appendEntries stale empty fine]
      cases found : c.queueRaftGroups.get? queue with
      | none => exact .absent
      | some g => exact moves_entries (drawn stale empty g found)

end

section
variable {leaderOf : String → UInt64 → UInt64} {s : LogTraffic} {x : UInt64} {i : ClusterInput}
  {queue : String}

theorem group_step_self : (s.nodes.step (x, i)).group x queue =
    ((s.nodes x).react i).state.queueRaftGroups.get? queue := by
  unfold ClusterNodes.group ClusterNodes.step
  rw [if_pos rfl]

theorem group_step_other {y : UInt64} (apart : y ≠ x) :
    (s.nodes.step (x, i)).group y queue = s.nodes.group y queue := by
  unfold ClusterNodes.group ClusterNodes.step
  rw [if_neg apart]

theorem founded_answers (founded : ∀ queue, s.Founded leaderOf queue)
    (f : AppendEntries RaftCommand) (name : String) (g : RaftQueueState)
    (there : (s.nodes x).queueRaftGroups.get? name = some g) :
    (g.handleAppendEntries f).2 ≠ none := by
  have copies := (founded name).copied x g there
  have filled : g.log ≠ [] := fun empty => by
    have based := copies.based
    rw [empty] at based
    cases based
  have indexed : Indexed g.log := (founded name).history.indexed_copy copies
  exact Indexed.answers indexed filled f

theorem moves_step (founded : ∀ queue, s.Founded leaderOf queue)
    (disciplined : s.Disciplined leaderOf (x, i)) (queue : String) :
    GroupMoves leaderOf s.led x queue (s.nodes.group x queue)
      ((s.nodes.step (x, i)).group x queue) := by
  rw [group_step_self]
  by_cases other : i.movesGroups = false
  · rw [groups_react other]
    exact moves_same
  · cases i with
    | closed => exact absurd rfl other
    | task t =>
      cases t with
      | createGroup name size =>
        exact moves_createGroup size (Option.isNone_iff_eq_none.mp disciplined)
      | appendLocal name command => exact moves_appendLocal command disciplined
      | peerDown downed =>
        exact moves_failover downed fun g found =>
          disciplined queue (FinMap.mem_keys_iff.mpr ⟨g, found⟩) g found
      | _ => exact absurd rfl other
    | frame sender inbound known f =>
      cases f with
      | nodeDown downed _ =>
        exact moves_failover downed fun g found =>
          disciplined queue (FinMap.mem_keys_iff.mpr ⟨g, found⟩) g found
      | appendEntriesResponse term success matchIndex => exact moves_response success matchIndex
      | appendEntries f =>
        exact moves_appendEntries (founded_answers founded f) fun current filled g found =>
          disciplined current filled queue (FinMap.mem_keys_iff.mpr ⟨g, found⟩) g found
      | _ => exact absurd rfl other

theorem mem_ledLogs {c : Coordinator} {t : UInt64} {log : List (LogEntry RaftCommand)} :
    ⟨queue, t, log⟩ ∈ c.ledLogs leaderOf x ↔ ∃ g, c.queueRaftGroups.get? queue = some g ∧
      g.LedBy leaderOf queue x ∧ g.currentTerm = t ∧ g.log = log := by
  unfold Coordinator.ledLogs
  rw [List.mem_map]
  constructor
  · rintro ⟨⟨name, g⟩, member, same⟩
    obtain ⟨rfl, rfl, rfl⟩ := LedLog.mk.inj same
    obtain ⟨member, leads⟩ := List.mem_filter.mp member
    exact ⟨g, FinMap.get?_eq_some_iff_mem.mpr member, of_decide_eq_true leads, rfl, rfl⟩
  · rintro ⟨g, found, leads, rfl, rfl⟩
    exact ⟨⟨queue, g⟩, List.mem_filter.mpr ⟨FinMap.get?_eq_some_iff_mem.mp found,
      decide_eq_true leads⟩, rfl⟩

theorem mem_led_step {t : UInt64} {log : List (LogEntry RaftCommand)} :
    ⟨queue, t, log⟩ ∈ (s.step leaderOf (x, i)).led ↔ ⟨queue, t, log⟩ ∈ s.led ∨
      ∃ g, (s.nodes.step (x, i)).group x queue = some g ∧ g.LedBy leaderOf queue x ∧
        g.currentTerm = t ∧ g.log = log :=
  List.mem_append.trans (or_congr Iff.rfl mem_ledLogs)

theorem taking_step (founded : ∀ queue, s.Founded leaderOf queue)
    (disciplined : s.Disciplined leaderOf (x, i)) {y t : UInt64} {upTo : Nat}
    (member : ⟨y, queue, t, upTo⟩ ∈ (s.nodes x).takings x i) :
    y = x ∧ ∃ f g g', s.nodes.group x queue = some g ∧
      (s.nodes.step (x, i)).group x queue = some g' ∧ TakesEntries s.led queue f g g' ∧
      f.term = t ∧ f.prevLogIndex + f.entries.length = upTo := by
  unfold Coordinator.takings at member
  split at member
  · rename_i sender inbound known f
    split at member
    · cases member
    · rename_i current
      obtain ⟨current, filled⟩ := not_or.mp current
      obtain ⟨⟨name, g⟩, offered, same⟩ := List.mem_map.mp member
      obtain ⟨rfl, rfl, rfl, rfl⟩ := Taking.mk.inj same
      obtain ⟨entry, accepts⟩ := List.mem_filter.mp offered
      have found : (s.nodes x).queueRaftGroups.get? name = some g :=
        FinMap.get?_eq_some_iff_mem.mpr entry
      have accepts : g.Accepts f := of_decide_eq_true accepts
      refine ⟨rfl, f, g, (g.handleAppendEntries f).1, found, ?_, ?_, rfl, rfl⟩
      · rw [group_step_self]
        refine (get?_appendEntries current filled (founded_answers founded f)).trans ?_
        rw [found]
        rfl
      · exact takes_entries accepts
          (disciplined current filled name (FinMap.mem_keys_iff.mpr ⟨g, found⟩) g found accepts)
  · cases member

end

namespace LogTraffic.Founded
variable {leaderOf : String → UInt64 → UInt64} {s : LogTraffic} {x y : UInt64} {i : ClusterInput}
  {queue : String}

theorem history_step (h : s.Founded leaderOf queue)
    (moves : GroupMoves leaderOf s.led x queue (s.nodes.group x queue)
      ((s.nodes.step (x, i)).group x queue)) :
    LogHistory (s.step leaderOf (x, i)).led queue := by
  have more : s.led ⊆ (s.step leaderOf (x, i)).led := List.subset_append_left _ _
  have fresh {g : RaftQueueState} (found : (s.nodes.step (x, i)).group x queue = some g)
      (leads : g.LedBy leaderOf queue x) :=
    h.fits (found ▸ moves) leads more (mem_led_step.mpr (.inr ⟨g, found, leads, rfl, rfl⟩))
  refine ⟨fun t log known => ?_, fun t log known => ?_, fun t log log' known known' => ?_,
    fun t log known => ?_⟩
  · rcases mem_led_step.mp known with old | ⟨g, found, leads, rfl, rfl⟩
    · exact h.history.indexed t log old
    · exact (fresh found leads).1
  · rcases mem_led_step.mp known with old | ⟨g, found, leads, rfl, rfl⟩
    · exact h.history.based t log old
    · exact (fresh found leads).2.1
  · rcases mem_led_step.mp known with old | ⟨g, found, leads, rfl, rfl⟩
    · rcases mem_led_step.mp known' with old' | ⟨g, found, leads, rfl, rfl⟩
      · exact h.history.growing t log log' old old'
      · exact .inl (h.longer (found ▸ moves) leads old)
    · rcases mem_led_step.mp known' with old' | ⟨g', found', -, -, rfl⟩
      · exact .inr (h.longer (found ▸ moves) leads old')
      · cases found.symm.trans found'
        exact .inl (List.prefix_refl _)
  · rcases mem_led_step.mp known with old | ⟨g, found, leads, rfl, rfl⟩
    · intro i e positive here
      obtain ⟨log', known, long, same⟩ := h.history.origin t log old i e positive here
      exact ⟨log', more known, long, same⟩
    · exact (fresh found leads).2.2

theorem copied_step (h : s.Founded leaderOf queue)
    (moves : GroupMoves leaderOf s.led x queue (s.nodes.group x queue)
      ((s.nodes.step (x, i)).group x queue)) {g' : RaftQueueState}
    (found' : (s.nodes.step (x, i)).group y queue = some g') :
    Copies (s.step leaderOf (x, i)).led queue g'.log := by
  have more : s.led ⊆ (s.step leaderOf (x, i)).led := List.subset_append_left _ _
  by_cases same : y = x
  · subst same
    rw [found'] at moves
    have whole := moves
    generalize before : s.nodes.group y queue = found at moves
    cases moves with
    | created root => exact ⟨by rw [root]; rfl, .inl root⟩
    | @kept g _ same _ _ =>
      rw [same]
      exact (h.copied y g before).mono more
    | @appended g _ _ led leads term _ =>
      have leads' : g'.LedBy leaderOf queue y := ⟨leads, term ▸ led.2⟩
      have noted := mem_led_step.mpr (.inr ⟨g', found', leads', rfl, rfl⟩)
      exact ⟨(h.fits whole leads' more noted).2.1, .inr ⟨_, _, noted, List.prefix_refl _⟩⟩
    | @took g _ f takes =>
      obtain ⟨leader, known, drawn⟩ := takes.drawn
      rw [takes.log]
      exact (copies_taken h.history (h.copied y g before) known drawn takes.accepts).1.mono more
  · rw [group_step_other same] at found'
    exact (h.copied y g' found').mono more

theorem owned_step (h : s.Founded leaderOf queue)
    (moves : GroupMoves leaderOf s.led x queue (s.nodes.group x queue)
      ((s.nodes.step (x, i)).group x queue)) {t : UInt64} {log : List (LogEntry RaftCommand)}
    (known : ⟨queue, t, log⟩ ∈ (s.step leaderOf (x, i)).led) :
    ∃ g, (s.nodes.step (x, i)).group (leaderOf queue t) queue = some g ∧ t ≤ g.currentTerm := by
  rcases mem_led_step.mp known with old | ⟨g, found, leads, rfl, rfl⟩
  · obtain ⟨g, found, reached⟩ := h.owned t log old
    by_cases same : leaderOf queue t = x
    · rw [same] at found ⊢
      rw [found] at moves
      obtain ⟨g', found', newer⟩ := moves.later
      exact ⟨g', found', UInt64.le_trans reached newer⟩
    · rw [group_step_other same]
      exact ⟨g, found, reached⟩
  · rw [leads.2]
    exact ⟨g, found, UInt64.le_refl _⟩

theorem longest_step (h : s.Founded leaderOf queue)
    (moves : GroupMoves leaderOf s.led x queue (s.nodes.group x queue)
      ((s.nodes.step (x, i)).group x queue)) {g : RaftQueueState}
    (found : (s.nodes.step (x, i)).group y queue = some g) (leads : g.LedBy leaderOf queue y) :
    ⟨queue, g.currentTerm, g.log⟩ ∈ (s.step leaderOf (x, i)).led ∧
      ∀ log, ⟨queue, g.currentTerm, log⟩ ∈ (s.step leaderOf (x, i)).led → log <+: g.log := by
  by_cases same : y = x
  · subst same
    refine ⟨mem_led_step.mpr (.inr ⟨g, found, leads, rfl, rfl⟩), fun log known => ?_⟩
    rcases mem_led_step.mp known with old | ⟨g', found', -, -, rfl⟩
    · exact h.longer (found ▸ moves) leads old
    · cases found.symm.trans found'
      exact List.prefix_refl _
  · rw [group_step_other same] at found
    obtain ⟨noted, longest⟩ := h.longest y g found leads
    refine ⟨mem_led_step.mpr (.inl noted), fun log known => ?_⟩
    rcases mem_led_step.mp known with old | ⟨g', -, leads', term, -⟩
    · exact longest log old
    · rw [RaftQueueState.LedBy, term, leads.2] at leads'
      exact absurd leads'.2 same

end LogTraffic.Founded

/-- What a group took of a leader's log is there for the rest of the term. -/
theorem GroupMoves.keeps_taken {leaderOf : String → UInt64 → UInt64} {led : List LedLog}
    {x : UInt64} {queue : String} {g g' : RaftQueueState} (history : LogHistory led queue)
    (copies : Copies led queue g.log)
    (moves : GroupMoves leaderOf led x queue (some g) (some g')) {t : UInt64} {upTo : Nat}
    {log : List (LogEntry RaftCommand)} (known : ⟨queue, t, log⟩ ∈ led) (long : upTo < log.length)
    (reached : t ≤ g.currentTerm)
    (taken : g.currentTerm = t → g.log.take (upTo + 1) = log.take (upTo + 1))
    (still : g'.currentTerm = t) : g'.log.take (upTo + 1) = log.take (upTo + 1) := by
  obtain ⟨_, stays, newer⟩ := moves.later
  cases stays
  have before : g.currentTerm = t := UInt64.le_antisymm (still ▸ newer) reached
  have had := taken before
  cases moves with
  | kept same _ _ => rwa [same]
  | appended _ _ _ more =>
    have size := congrArg List.length had
    rw [List.length_take, List.length_take] at size
    rw [more, List.take_append_of_le_length (by omega)]
    exact had
  | @took _ _ f takes =>
    obtain ⟨leader, known', drawn⟩ := takes.drawn
    have term : f.term = t := takes.term.symm.trans still
    subst term
    rw [takes.log]
    exact (copies_taken history copies known' drawn takes.accepts).2.2 log upTo known long had

namespace LogTraffic.Founded
variable {leaderOf : String → UInt64 → UInt64} {s : LogTraffic} {x y : UInt64} {i : ClusterInput}
  {queue : String}

theorem taken_step (founded : ∀ queue, s.Founded leaderOf queue)
    (disciplined : s.Disciplined leaderOf (x, i)) {t : UInt64} {upTo : Nat}
    (member : ⟨y, queue, t, upTo⟩ ∈ (s.step leaderOf (x, i)).takings) :
    ∃ g log, (s.nodes.step (x, i)).group y queue = some g ∧ t ≤ g.currentTerm ∧
      ⟨queue, t, log⟩ ∈ (s.step leaderOf (x, i)).led ∧ upTo < log.length ∧
      (g.currentTerm = t → g.log.take (upTo + 1) = log.take (upTo + 1)) := by
  have h := founded queue
  have more : s.led ⊆ (s.step leaderOf (x, i)).led := List.subset_append_left _ _
  rcases List.mem_append.mp member with old | new
  · obtain ⟨g, log, found, reached, known, long, taken⟩ := h.taken y t upTo old
    by_cases same : y = x
    · subst same
      have moves := moves_step founded disciplined queue
      rw [found] at moves
      obtain ⟨g', found', newer⟩ := moves.later
      rw [found'] at moves
      exact ⟨g', log, found', UInt64.le_trans reached newer, more known, long,
        moves.keeps_taken h.history (h.copied y g found) known long reached taken⟩
    · rw [group_step_other same]
      exact ⟨g, log, found, reached, more known, long, taken⟩
  · obtain ⟨rfl, f, g, g', found, found', takes, rfl, rfl⟩ := taking_step founded disciplined new
    obtain ⟨leader, known, drawn⟩ := takes.drawn
    refine ⟨g', leader, found', takes.term ▸ UInt64.le_refl _, more known, drawn.inside, ?_⟩
    intro _
    rw [takes.log]
    exact (copies_taken h.history (h.copied y g found) known drawn takes.accepts).2.1

theorem step (founded : ∀ queue, s.Founded leaderOf queue)
    (disciplined : s.Disciplined leaderOf (x, i)) (queue : String) :
    (s.step leaderOf (x, i)).Founded leaderOf queue := by
  have h := founded queue
  have moves := moves_step founded disciplined queue
  exact ⟨h.history_step moves, fun _ _ => h.copied_step moves, fun _ _ => h.owned_step moves,
    fun _ _ => h.longest_step moves, fun _ _ _ => taken_step founded disciplined⟩

end LogTraffic.Founded

theorem founded_start (leaderOf : String → UInt64 → UInt64) (queue : String) :
    LogTraffic.start.Founded leaderOf queue := by
  refine ⟨⟨?_, ?_, ?_, ?_⟩, ?_, ?_, ?_, ?_⟩
  all_goals
    intros
    contradiction

theorem founded_run (leaderOf : String → UInt64 → UInt64) (es : List (UInt64 × ClusterInput))
    (disciplined : Run.Along (LogTraffic.step leaderOf) (LogTraffic.Disciplined leaderOf)
      LogTraffic.start es) (queue : String) :
    (Run.run (LogTraffic.step leaderOf) LogTraffic.start es).Founded leaderOf queue :=
  Run.invariant (fun _ s => ∀ queue, s.Founded leaderOf queue) (founded_start leaderOf)
    (fun _ _ _ allowed founded => LogTraffic.Founded.step founded allowed) disciplined queue

end RocketmqBroker
