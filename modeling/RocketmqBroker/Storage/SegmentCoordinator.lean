import RocketmqBroker.Lib.Fallible
import RocketmqBroker.Storage.SegmentFile

/-!
The segment coordinator (storage/wal.rs): opening a directory, appending with
rotation, reading one payload back by position, reading everything, truncating.
The file system keeps what was written; a missing file and a read past the end
of one are the only failures.
-/
namespace RocketmqBroker
open BigEndian ByteReader RecordScan

inductive IoError where
  | notFound
  | unexpectedEof
  | invalidData (message : String)
  deriving DecidableEq, Repr

structure Segment where
  id : Nat
  path : String
  size : Nat
  maxSize : Nat
  deriving DecidableEq, Repr

/-- The directory is part of the value: the broker is its only writer. -/
structure SegmentCoordinator where
  dir : Dir
  active : Segment
  maxSegmentSize : Nat
  deriving DecidableEq

/-- Opening with `create(true).append(true)`. -/
def Dir.touch (dir : Dir) (name : String) : Dir := FinMap.orInsert dir name []

def Dir.appendTo (dir : Dir) (name : String) (bytes : Bytes) : Dir :=
  dir.insert name ((dir.get? name).getD [] ++ bytes)

def Dir.removeFiles (dir : Dir) (names : List String) : Dir :=
  names.foldl (fun d name => d.erase name) dir

variable (crc32 : Bytes → UInt32)

/-- Returns the offset and the length of the record. The file is opened in
    append mode, so the bytes go to its end whatever `size` says. -/
def Segment.append (seg : Segment) (dir : Dir) (e : WalEntry) : Dir × Segment × Nat × Nat :=
  let entryBuf := recordBytes crc32 e
  let offset := seg.size
  let entryLen := entryBuf.length % 2 ^ 32
  (dir.appendTo seg.path entryBuf, { seg with size := seg.size + entryLen }, offset, entryLen)

namespace SegmentCoordinator

def new (dir : Dir) (maxSegmentSize : Nat) : SegmentCoordinator :=
  let activeId := (discoverSegmentIds dir).getLast?.getD 1
  let activePath := segmentPath activeId
  let dir := Dir.touch dir activePath
  let fileSize := ((dir.get? activePath).getD []).length
  ⟨dir, ⟨activeId, activePath, fileSize, maxSegmentSize⟩, maxSegmentSize⟩

def rotate (w : SegmentCoordinator) : SegmentCoordinator :=
  let nextId := w.active.id + 1
  let nextPath := segmentPath nextId
  { w with dir := w.dir.touch nextPath, active := ⟨nextId, nextPath, 0, w.maxSegmentSize⟩ }

/-- Returns the segment, the offset and the length of the record. -/
def append (w : SegmentCoordinator) (e : WalEntry) : SegmentCoordinator × Nat × Nat × Nat :=
  let entrySize := walHeaderSize + e.data.length
  let w := if w.active.size + entrySize > w.active.maxSize then w.rotate else w
  let segmentId := w.active.id
  let (dir, active, offset, length) := w.active.append crc32 w.dir e
  ({ w with dir, active }, segmentId, offset, length)

def corrupt {α : Type} (message : String) : Option α → Except IoError α
  | some a => .ok a
  | none => .error (.invalidData message)

def payloadFields (payload : Bytes) : Except IoError (Bytes × Bytes) := do
  let (queueLen, cur) ← corrupt "truncated queue_name len" (readWord 2 payload)
  let (_, cur) ← corrupt "truncated queue_name" (readSlice queueLen cur)
  let (_, cur) ← corrupt "truncated msg_id" (readWord 8 cur)
  let (exLen, cur) ← corrupt "truncated exchange len" (readWord 2 cur)
  let (_, cur) ← corrupt "truncated exchange" (readSlice exLen cur)
  let (rkLen, cur) ← corrupt "truncated routing_key len" (readWord 2 cur)
  let (_, cur) ← corrupt "truncated routing_key" (readSlice rkLen cur)
  let (headersLen, cur) ← corrupt "truncated headers len" (readWord 4 cur)
  let (headers, cur) ← corrupt "truncated headers" (readSlice headersLen cur)
  let (bodyLen, cur) ← corrupt "truncated body len" (readWord 4 cur)
  let (body, _) ← corrupt "truncated body" (readSlice bodyLen cur)
  return (headers, body)

def eof {α : Type} : Option α → Except IoError α
  | some a => .ok a
  | none => .error .unexpectedEof

def readMessagePayload (w : SegmentCoordinator) (segmentId offset _length : Nat) :
    Except IoError (Bytes × Bytes) := do
  let some file := w.dir.get? (segmentPath segmentId) | .error .notFound
  let (header, cur) ← eof (readSlice walHeaderSize (file.drop offset))
  let totalLen := fromBeBytes (header.take 4)
  let expectedCrc := fromBeBytes ((header.drop 4).take 4)
  let entryType := header.getD 8 0
  if totalLen < 1 then
    .error (.invalidData "invalid total_len in segment")
  else
    let (payload, _) ← eof (readSlice (totalLen - 1) cur)
    if (crc32 (entryType :: payload)).toNat ≠ expectedCrc then
      .error (.invalidData "segment CRC mismatch")
    else if entryType ≠ EntryType.enqueue.toByte then
      .error (.invalidData "not an Enqueue entry")
    else payloadFields payload

/-- A file that is missing by the time it is opened counts as empty. -/
def readAllEntries (w : SegmentCoordinator) : List WalEntry :=
  (discoverSegmentIds w.dir).flatMap fun id =>
    readEntries crc32 ((w.dir.get? (segmentPath id)).getD [])

def truncate (w : SegmentCoordinator) : SegmentCoordinator :=
  let dir := Dir.touch (w.dir.removeFiles w.dir.keys) (segmentPath 1)
  { w with dir, active := ⟨1, segmentPath 1, 0, w.maxSegmentSize⟩ }

/-- `Wal::log_enqueue`: the only append whose position is kept. -/
def logEnqueue (w : SegmentCoordinator) (queue : String) (msgId : UInt64)
    (exchange routingKey : String) (headers body : Bytes) :
    SegmentCoordinator × Nat × Nat × Nat :=
  w.append crc32 (enqueueEntry queue msgId exchange routingKey headers body)

/-- `Wal::append`, without the sequence number that no caller reads. -/
def log (w : SegmentCoordinator) (e : WalEntry) : SegmentCoordinator := (w.append crc32 e).1

def logAll (w : SegmentCoordinator) (es : List WalEntry) : SegmentCoordinator :=
  es.foldl (fun w e => w.log crc32 e) w

end SegmentCoordinator
end RocketmqBroker
