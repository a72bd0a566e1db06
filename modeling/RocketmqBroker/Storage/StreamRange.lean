import RocketmqBroker.Storage.StreamLog

/-!
Reading a stream from an offset on. The size of the result is looked at behind a message that
was put into it, so a reader that asks for none is given one where there is one.
-/
namespace RocketmqBroker

def StreamSegment.nextOffset (s : StreamSegment) : Nat := s.startOffset + s.messages.length

/-- The loops of `read_range`: what was found, the bound that moves, and if they were left. -/
structure RangeScan where
  results : List StreamMessage
  current : Nat
  broken : Bool
  deriving DecidableEq, Repr

namespace RangeScan

def takeMessage (limit : Nat) (scan : RangeScan) (msg : StreamMessage) : RangeScan :=
  if scan.broken then scan
  else if msg.offset ≥ scan.current then
    let results := scan.results ++ [msg]
    ⟨results, msg.offset + 1, decide (results.length ≥ limit)⟩
  else scan

def takeSegment (limit : Nat) (scan : RangeScan) (segment : StreamSegment) : RangeScan :=
  if scan.broken then scan
  else if segment.nextOffset ≤ scan.current then scan
  else segment.messages.foldl (takeMessage limit) scan

end RangeScan

namespace StreamStore

def readRange (store : StreamStore) (fromOffset limit : Nat) : List StreamMessage :=
  (store.segments.values.foldl (RangeScan.takeSegment limit) ⟨[], fromOffset, false⟩).results

def retained (store : StreamStore) : List StreamMessage :=
  store.segments.values.flatMap (·.messages)

def available (store : StreamStore) (fromOffset : Nat) : List StreamMessage :=
  store.retained.filter fun m => decide (fromOffset ≤ m.offset)

end StreamStore

namespace RangeScan
variable {limit : Nat} {scan : RangeScan} {messages : List StreamMessage}

theorem foldl_broken (broken : scan.broken = true) (messages : List StreamMessage) :
    messages.foldl (takeMessage limit) scan = scan := by
  induction messages with
  | nil => rfl
  | cons m messages ih =>
    rw [List.foldl_cons, takeMessage, if_pos broken]
    exact ih

theorem foldl_below (below : ∀ m ∈ messages, m.offset < scan.current) :
    messages.foldl (takeMessage limit) scan = scan := by
  induction messages with
  | nil => rfl
  | cons m messages ih =>
    obtain ⟨first, later⟩ := List.forall_mem_cons.mp below
    have same : takeMessage limit scan m = scan := by
      unfold takeMessage
      rw [if_neg (Nat.not_le.mpr first), ite_self]
    rw [List.foldl_cons, same]
    exact ih later

theorem foldl_results (ascending : messages.Pairwise fun a b => a.offset < b.offset)
    {results : List StreamMessage} {current : Nat} (less : results.length < max limit 1) :
    (messages.foldl (takeMessage limit) ⟨results, current, false⟩).results = results ++
      (messages.filter fun m => decide (current ≤ m.offset)).take
        (max limit 1 - results.length) := by
  induction messages generalizing results current with
  | nil => rw [List.foldl_nil, List.filter_nil, List.take_nil, List.append_nil]
  | cons m messages ih =>
    obtain ⟨above, ascending⟩ := List.pairwise_cons.mp ascending
    rw [List.foldl_cons, takeMessage, if_neg Bool.false_ne_true]
    dsimp only
    by_cases reached : current ≤ m.offset
    · have all : (m :: messages).filter (fun m => decide (current ≤ m.offset)) = m :: messages := by
        refine List.filter_eq_self.mpr fun m' member => decide_eq_true ?_
        cases List.mem_cons.mp member with
        | inl first => exact first ▸ reached
        | inr later => exact reached.trans (above m' later).le
      have others : messages.filter (fun m' => decide (m.offset + 1 ≤ m'.offset)) = messages :=
        List.filter_eq_self.mpr fun m' member => decide_eq_true (above m' member)
      have length : (results ++ [m]).length = results.length + 1 := List.length_append
      rw [if_pos reached, all, length]
      by_cases full : results.length + 1 ≥ limit
      · have one : max limit 1 - results.length = 1 := by omega
        rw [decide_eq_true full, foldl_broken rfl, one]
        rfl
      · have more : max limit 1 - results.length = max limit 1 - (results.length + 1) + 1 := by
          omega
        rw [decide_eq_false full, ih ascending (by omega), others, more, List.take_succ_cons,
          length, List.append_assoc, List.singleton_append]
    · have same : messages.filter (fun m => decide (current ≤ m.offset)) =
          (m :: messages).filter (fun m => decide (current ≤ m.offset)) :=
        (List.filter_cons_of_neg (by simpa using reached)).symm
      rw [if_neg reached, ih ascending less, same]

end RangeScan

section
variable {n : Nat} {entries : List SegmentEntry}

theorem heldBy_ascending (chained : Chained n entries) :
    (heldBy entries).Pairwise fun a b => a.offset < b.offset := by
  have numbers := heldBy_offsets chained
  rw [← List.pairwise_map (f := StreamMessage.offset) (R := (· < ·)), numbers]
  exact List.pairwise_lt_range'

theorem segment_below {k : Nat} {s : StreamSegment} {rest : List SegmentEntry}
    (chained : Chained n ((k, s) :: rest)) : ∀ m ∈ s.messages, m.offset < s.nextOffset := by
  obtain ⟨-, start, numbered, -⟩ := chained
  intro m member
  have number := List.mem_map_of_mem (f := (·.offset)) member
  rw [numbered, List.mem_range'_1] at number
  unfold StreamSegment.nextOffset
  omega

theorem takeSegment_eq {limit k : Nat} {s : StreamSegment} {rest : List SegmentEntry}
    (chained : Chained n ((k, s) :: rest)) (scan : RangeScan) :
    scan.takeSegment limit s = s.messages.foldl (RangeScan.takeMessage limit) scan := by
  unfold RangeScan.takeSegment
  split
  · rename_i broken
    exact (RangeScan.foldl_broken broken _).symm
  · split
    · rename_i passed
      refine (RangeScan.foldl_below fun m member => ?_).symm
      exact (segment_below chained m member).trans_le passed
    · rfl

theorem takeSegments_eq {limit : Nat} (chained : Chained n entries) (scan : RangeScan) :
    (entries.map Prod.snd).foldl (RangeScan.takeSegment limit) scan =
      (heldBy entries).foldl (RangeScan.takeMessage limit) scan := by
  induction entries generalizing n scan with
  | nil => rfl
  | cons e rest ih =>
    obtain ⟨k, s⟩ := e
    have parts : heldBy ((k, s) :: rest) = s.messages ++ heldBy rest := rfl
    rw [List.map_cons, List.foldl_cons, takeSegment_eq chained, ih chained.2.2.2, parts,
      List.foldl_append]

end

namespace StreamStore
variable {store : StreamStore} {log : TruncatedLog Bytes} {latest : Instant}

theorem retained_eq (store : StreamStore) : store.retained = heldBy store.segments.entries := by
  rw [retained, OrderedMap.values, List.flatMap_map]
  rfl

theorem Sound.ascending (sound : store.Sound log latest) :
    store.retained.Pairwise fun a b => a.offset < b.offset := by
  rw [retained_eq]
  exact heldBy_ascending sound.chained

theorem Sound.mem_retained (sound : store.Sound log latest) (m : StreamMessage) :
    m ∈ store.retained ↔ store.read m.offset = some m := by
  have chained := sound.chained
  have read : store.read m.offset = if log.first ≤ m.offset then
      (heldBy store.segments.entries)[m.offset - log.first]? else none := read_chained chained
  rw [read, retained_eq]
  constructor
  · intro member
    obtain ⟨i, inside, rfl⟩ := List.mem_iff_getElem.mp member
    have number := congrArg (·[i]?) (heldBy_offsets chained)
    rw [List.getElem?_map, List.getElem?_eq_getElem inside, List.getElem?_range' inside,
      Option.map_some] at number
    have numbered := Option.some.inj number
    have place : log.first + 1 * i - log.first = i := by omega
    rw [numbered, if_pos (by omega), place, List.getElem?_eq_getElem inside]
  · intro found
    split at found
    · exact List.mem_of_getElem? found
    · cases found

/-- A reader is given what it asks for, and one message at least where there is one. -/
theorem Sound.readRange_eq (sound : store.Sound log latest) (fromOffset limit : Nat) :
    store.readRange fromOffset limit = (store.available fromOffset).take (max limit 1) := by
  have ascending := sound.ascending
  rw [retained_eq] at ascending
  have scanned := @RangeScan.foldl_results limit _ ascending [] fromOffset
    (by rw [List.length_nil]; omega)
  rw [readRange, OrderedMap.values, takeSegments_eq sound.chained, scanned, available, retained_eq]
  rfl

theorem Sound.readRange_iff (sound : store.Sound log latest) (fromOffset limit : Nat) :
    store.readRange fromOffset limit = (store.available fromOffset).take limit ↔
      limit ≠ 0 ∨ ∀ m ∈ store.retained, m.offset < fromOffset := by
  rw [sound.readRange_eq]
  by_cases asked : limit = 0
  · subst asked
    have none_there : store.available fromOffset = [] ↔
        ∀ m ∈ store.retained, m.offset < fromOffset := by
      rw [available, List.filter_eq_nil_iff]
      refine forall₂_congr fun m _ => ?_
      rw [decide_eq_true_eq, Nat.not_le]
    have one : max 0 1 = 1 := rfl
    rw [one, List.take_zero, List.take_eq_nil_iff, none_there]
    tauto
  · have same : max limit 1 = limit := by omega
    rw [same]
    exact iff_of_true rfl (.inl asked)

end StreamStore

/-- In every store that calls lead to, the messages that are there ascend by offset, and from
    any offset on the first of them, as many as asked for, are given, except that a reader that
    asks for none is given one where there is one. -/
theorem stream_range_iff (maxSegmentSize : Nat) (created : Instant) (calls : List StreamCall)
    (monotone : (created :: calls.flatMap StreamCall.readings).Pairwise (· ≤ ·)) :
    ∃ returned store, (StreamStore.new maxSegmentSize created).perform calls =
        some (returned, store) ∧
      (store.retained.Pairwise fun a b => a.offset < b.offset) ∧
      (∀ m, m ∈ store.retained ↔ store.read m.offset = some m) ∧
      ∀ fromOffset limit,
        store.readRange fromOffset limit = (store.available fromOffset).take limit ↔
          limit ≠ 0 ∨ ∀ m ∈ store.retained, m.offset < fromOffset := by
  obtain ⟨store, log, latest, performed, -, sound⟩ :=
    (StreamStore.Sound.new maxSegmentSize created).perform calls monotone
  exact ⟨_, store, performed, sound.ascending, sound.mem_retained, sound.readRange_iff⟩

theorem stream_range_iff_three : ∃ returned store,
    (StreamStore.new 0 0).perform threeAppends = some (returned, store) ∧
      (store.retained.Pairwise fun a b => a.offset < b.offset) ∧
      (∀ m, m ∈ store.retained ↔ store.read m.offset = some m) ∧
      ∀ fromOffset limit,
        store.readRange fromOffset limit = (store.available fromOffset).take limit ↔
          limit ≠ 0 ∨ ∀ m ∈ store.retained, m.offset < fromOffset :=
  stream_range_iff 0 0 threeAppends (by decide)

/-- One message is there, none is asked for, and it is given. -/
theorem stream_range_unasked : ∃ store,
    (StreamStore.new 1024 0).perform [.append [7] 0 0] = some ([0], store) ∧
      store.readRange 0 0 = [⟨0, [7], 0⟩] ∧
      store.readRange 0 0 ≠ (store.available 0).take 0 :=
  ⟨_, rfl, rfl, List.cons_ne_nil _ _⟩

end RocketmqBroker
