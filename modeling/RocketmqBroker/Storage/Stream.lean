import RocketmqBroker.Lib.OrderedMap
import RocketmqBroker.Lib.StableList
import RocketmqBroker.Queue.Message

/-!
Stream queues on segments (storage/stream.rs): messages are numbered from the start of their
segment, segments are keyed by the number that they start at. Retention takes away segments.
Numbers and sizes are of 64 bits in the source; here they have no bound.
-/
namespace RocketmqBroker

structure StreamMessage where
  offset : Nat
  body : Bytes
  timestamp : Instant
  deriving DecidableEq, Repr

structure StreamSegment where
  startOffset : Nat
  messages : List StreamMessage
  createdAt : Instant
  sizeBytes : Nat
  deriving DecidableEq, Repr

namespace StreamSegment

def new (startOffset : Nat) (now : Instant) : StreamSegment := ⟨startOffset, [], now, 0⟩

def append (s : StreamSegment) (body : Bytes) (now : Instant) : Nat × StreamSegment :=
  let offset := s.startOffset + s.messages.length
  (offset, { s with
    sizeBytes := s.sizeBytes + body.length
    messages := s.messages ++ [⟨offset, body, now⟩] })

def get? (s : StreamSegment) (offset : Nat) : Option StreamMessage :=
  if offset < s.startOffset then none else s.messages[offset - s.startOffset]?

end StreamSegment

structure RetentionPolicy where
  maxAge : Option Nat
  maxBytes : Option Nat
  deriving DecidableEq, Repr

def RetentionPolicy.default : RetentionPolicy := ⟨some (7 * 24 * 3600 * 1000), none⟩

abbrev StreamSegments := OrderedMap Nat StreamSegment

structure StreamStore where
  segments : StreamSegments
  maxSegmentSize : Nat
  retention : RetentionPolicy
  nextOffset : Nat

namespace StreamSegments

def currentStart (segments : StreamSegments) : Nat := segments.lastKey?.getD 0

def totalBytes (segments : StreamSegments) : Nat :=
  (segments.values.map (·.sizeBytes)).foldl (· + ·) 0

def evictKeys (keys : List Nat) (segments : StreamSegments) : StreamSegments :=
  keys.foldl (fun m k => if 1 < m.size then m.erase k else m) segments

/-- While there are too many bytes and another segment the oldest one goes. Each turn takes one
    away, so there are as many turns as segments. -/
def evictBytes (maxBytes : Nat) : Nat → StreamSegments → StreamSegments
  | 0, segments => segments
  | fuel + 1, segments =>
    if maxBytes < segments.totalBytes ∧ 1 < segments.size then
      match segments.firstKey? with
      | some oldest => evictBytes maxBytes fuel (segments.erase oldest)
      | none => segments
    else segments

end StreamSegments

namespace StreamStore

def new (maxSegmentSize : Nat) (now : Instant) : StreamStore :=
  ⟨OrderedMap.empty.insert 0 (.new 0 now), maxSegmentSize, .default, 0⟩

def needsRoll (store : StreamStore) : Bool :=
  ((store.segments.get? store.segments.currentStart).map
    fun s => decide (store.maxSegmentSize ≤ s.sizeBytes)).getD true

def rolled (store : StreamStore) (now : Instant) : StreamSegments :=
  if store.needsRoll then store.segments.insert store.nextOffset (.new store.nextOffset now)
  else store.segments

/-- Without a segment to append to the call panics. The clock is read for a new segment, and
    for the message. -/
def append (store : StreamStore) (body : Bytes) (opened stamped : Instant) :
    Option (Nat × StreamStore) :=
  let segments := store.rolled opened
  let start := segments.currentStart
  (segments.get? start).map fun segment =>
    let offset := (segment.append body stamped).1
    (offset, { store with
      segments := segments.modify start fun s => (s.append body stamped).2
      nextOffset := offset + 1 })

/-- The last segment that starts at the offset or below it. -/
def read (store : StreamStore) (offset : Nat) : Option StreamMessage :=
  (store.segments.values.reverse.find? fun s => s.startOffset ≤ offset).bind (·.get? offset)

def firstOffset (store : StreamStore) : Nat :=
  (store.segments.values.head?.map (·.startOffset)).getD 0

def evictExpired (now : Instant) (maxAge : Nat) (segments : StreamSegments) : StreamSegments :=
  let expired := segments.entries.filter fun e => maxAge < now - e.2.createdAt
  segments.evictKeys (expired.map Prod.fst)

def applyRetention (store : StreamStore) (now : Instant) : StreamStore :=
  let segments := match store.retention.maxAge with
    | some maxAge => evictExpired now maxAge store.segments
    | none => store.segments
  let segments := match store.retention.maxBytes with
    | some maxBytes => segments.evictBytes maxBytes segments.size
    | none => segments
  { store with segments }

def offsets (store : StreamStore) : List Nat :=
  store.segments.values.flatMap fun s => s.messages.map (·.offset)

end StreamStore

inductive StreamCall where
  | append (body : Bytes) (opened stamped : Instant)
  | applyRetention (now : Instant)
  | setRetention (policy : RetentionPolicy)

namespace StreamCall

def readings : StreamCall → List Instant
  | append _ opened stamped => [opened, stamped]
  | applyRetention now => [now]
  | setRetention _ => []

def body? : StreamCall → Option Bytes
  | append body _ _ => some body
  | _ => none

def bodies (calls : List StreamCall) : List Bytes := calls.filterMap body?

end StreamCall

namespace StreamStore

def step (store : StreamStore) : StreamCall → Option (List Nat × StreamStore)
  | .append body opened stamped =>
    (store.append body opened stamped).map fun appended => ([appended.1], appended.2)
  | .applyRetention now => some ([], store.applyRetention now)
  | .setRetention policy => some ([], { store with retention := policy })

def perform (store : StreamStore) : List StreamCall → Option (List Nat × StreamStore)
  | [] => some ([], store)
  | call :: calls => do
    let (returned, store) ← store.step call
    let (later, store) ← store.perform calls
    return (returned ++ later, store)

end StreamStore

end RocketmqBroker
