import RocketmqBroker.Storage.SegmentLayout

/-!
Positions handed out by an append stay readable: later appends and rotations
only add bytes behind them. Together with the layout this is the round trip of
the whole log and of every enqueued payload.
-/
namespace RocketmqBroker
open BigEndian ByteReader RecordScan

/-- The checksum crc32fast computes, one bit at a time. -/
def crc32Ieee (bytes : Bytes) : UInt32 :=
  let bit (c : UInt32) : UInt32 := if c &&& 1 = 1 then (c >>> 1) ^^^ 0xEDB88320 else c >>> 1
  let byte (c : UInt32) (b : UInt8) : UInt32 :=
    (List.range 8).foldl (fun c _ => bit c) (c ^^^ b.toUInt32)
  (bytes.foldl byte 0xFFFFFFFF) ^^^ 0xFFFFFFFF

variable {crc32 : Bytes → UInt32} {w : SegmentCoordinator}

theorem touch_lookup_keeps {dir : Dir} {name other : String} {bytes : Bytes}
    (found : dir.get? name = some bytes) : (dir.touch other).get? name = some bytes := by
  rw [Dir.touch, FinMap.get?_orInsert]
  split
  · rename_i same
    subst same
    simp [found]
  · exact found

theorem log_extends_files (crc32 : Bytes → UInt32) {name : String} {bytes : Bytes} (e : WalEntry)
    (found : w.dir.get? name = some bytes) :
    ∃ more, (w.log crc32 e).dir.get? name = some (bytes ++ more) := by
  have written : ∀ v : SegmentCoordinator, v.dir.get? name = some bytes →
      ∃ more, (v.active.append crc32 v.dir e).1.get? name = some (bytes ++ more) := by
    intro v there
    simp only [Segment.append, appendTo_lookup]
    split
    · rename_i same
      subst same
      exact ⟨recordBytes crc32 e, by simp [there]⟩
    · exact ⟨[], by simp [there]⟩
  simp only [SegmentCoordinator.log, SegmentCoordinator.append]
  split
  · exact written w.rotate (touch_lookup_keeps found)
  · exact written w found

theorem logAll_extends_files (crc32 : Bytes → UInt32) {name : String} {bytes : Bytes}
    (es : List WalEntry) (found : w.dir.get? name = some bytes) :
    ∃ more, (w.logAll crc32 es).dir.get? name = some (bytes ++ more) := by
  induction es generalizing w bytes with
  | nil => exact ⟨[], by simpa [SegmentCoordinator.logAll] using found⟩
  | cons e es ih =>
    obtain ⟨first, h₁⟩ := log_extends_files crc32 e found
    obtain ⟨second, h₂⟩ := ih h₁
    exact ⟨first ++ second, by rw [← List.append_assoc]; exact h₂⟩

theorem append_position (crc32 : Bytes → UInt32) {closed : List Bytes} {last : Bytes}
    (h : Segments w closed last) (e : WalEntry) :
    ∃ before, (w.log crc32 e).dir.get? (segmentPath (w.append crc32 e).2.1) =
        some (before ++ recordBytes crc32 e) ∧ before.length = (w.append crc32 e).2.2.1 := by
  have written : ∀ {v : SegmentCoordinator} {closed last}, Segments v closed last →
      ∃ before, (v.active.append crc32 v.dir e).1.get? (segmentPath v.active.id) =
        some (before ++ recordBytes crc32 e) ∧
          before.length = (v.active.append crc32 v.dir e).2.2.1 := by
    intro v closed last hv
    exact ⟨last, by simp [Segment.append, appendTo_lookup, hv.active, hv.active_file],
      by simp [Segment.append, hv.active]⟩
  by_cases exceeds : w.active.size + (walHeaderSize + e.data.length) > w.active.maxSize
  · simpa only [SegmentCoordinator.log, SegmentCoordinator.append, exceeds, ↓reduceIte] using
      written (segments_rotate h)
  · simpa only [SegmentCoordinator.log, SegmentCoordinator.append, exceeds, ↓reduceIte] using
      written h

/-- Field lengths that survive the narrowing casts of the enqueue payload. -/
structure ShortFields (queue exchange routingKey : String) : Prop where
  queue : (strBytes queue).length < 2 ^ 16
  exchange : (strBytes exchange).length < 2 ^ 16
  routingKey : (strBytes routingKey).length < 2 ^ 16

instance (queue exchange routingKey : String) : Decidable (ShortFields queue exchange routingKey) :=
  decidable_of_iff ((strBytes queue).length < 2 ^ 16 ∧ (strBytes exchange).length < 2 ^ 16 ∧
    (strBytes routingKey).length < 2 ^ 16)
    ⟨fun ⟨q, x, r⟩ => ⟨q, x, r⟩, fun ⟨q, x, r⟩ => ⟨q, x, r⟩⟩

theorem enqueue_fits_fields {queue exchange routingKey : String} {msgId : UInt64}
    {headers body : Bytes}
    (fits : (enqueueEntry queue msgId exchange routingKey headers body).Fits) :
    headers.length < 256 ^ 4 ∧ body.length < 256 ^ 4 := by
  simp only [WalEntry.Fits, enqueueEntry_data, prefixed, List.length_append, toBeBytes_length]
    at fits
  omega

theorem payloadFields_of_reads {payload c₁ c₂ c₃ c₄ c₅ c₆ c₇ c₈ c₉ c₁₀ c₁₁ : Bytes}
    {queue exchange routingKey headers body : Bytes} {queueLen msgId exLen rkLen hLen bLen : Nat}
    (r₁ : readWord 2 payload = some (queueLen, c₁)) (r₂ : readSlice queueLen c₁ = some (queue, c₂))
    (r₃ : readWord 8 c₂ = some (msgId, c₃))
    (r₄ : readWord 2 c₃ = some (exLen, c₄)) (r₅ : readSlice exLen c₄ = some (exchange, c₅))
    (r₆ : readWord 2 c₅ = some (rkLen, c₆)) (r₇ : readSlice rkLen c₆ = some (routingKey, c₇))
    (r₈ : readWord 4 c₇ = some (hLen, c₈)) (r₉ : readSlice hLen c₈ = some (headers, c₉))
    (r₁₀ : readWord 4 c₉ = some (bLen, c₁₀)) (r₁₁ : readSlice bLen c₁₀ = some (body, c₁₁)) :
    SegmentCoordinator.payloadFields payload = .ok (headers, body) := by
  simp only [SegmentCoordinator.payloadFields, r₁, r₂, r₃, r₄, r₅, r₆, r₇, r₈, r₉, r₁₀, r₁₁,
    SegmentCoordinator.corrupt, Fallible.ok_bind]
  rfl

theorem payloadFields_enqueue {queue exchange routingKey : String} {msgId : UInt64}
    {headers body : Bytes} (short : ShortFields queue exchange routingKey)
    (fits : (enqueueEntry queue msgId exchange routingKey headers body).Fits) :
    SegmentCoordinator.payloadFields
      (enqueueEntry queue msgId exchange routingKey headers body).data = .ok (headers, body) := by
  obtain ⟨hh, hb⟩ := enqueue_fits_fields fits
  have id64 : msgId.toNat < 256 ^ 8 := by have := msgId.toNat_lt; omega
  have hq : (strBytes queue).length < 256 ^ 2 := by have := short.queue; omega
  have hx : (strBytes exchange).length < 256 ^ 2 := by have := short.exchange; omega
  have hr : (strBytes routingKey).length < 256 ^ 2 := by have := short.routingKey; omega
  rw [enqueueEntry_data]
  simp only [prefixed, List.append_assoc]
  exact payloadFields_of_reads (readWord_toBeBytes hq _) (readSlice_append rfl _)
    (readWord_toBeBytes id64 _) (readWord_toBeBytes hx _) (readSlice_append rfl _)
    (readWord_toBeBytes hr _) (readSlice_append rfl _) (readWord_toBeBytes hh _)
    (readSlice_append rfl _) (readWord_toBeBytes hb _) (readSlice_append rfl _)

theorem readMessagePayload_of_reads {segmentId offset length : Nat}
    {file header cur payload rest : Bytes}
    (found : w.dir.get? (segmentPath segmentId) = some file)
    (head : readSlice walHeaderSize (file.drop offset) = some (header, cur))
    (total : fromBeBytes (header.take 4) = 1 + payload.length)
    (tail : readSlice payload.length cur = some (payload, rest))
    (kind : header.getD 8 0 = EntryType.enqueue.toByte)
    (sum : fromBeBytes ((header.drop 4).take 4) =
      (crc32 (EntryType.enqueue.toByte :: payload)).toNat) :
    w.readMessagePayload crc32 segmentId offset length =
      SegmentCoordinator.payloadFields payload := by
  have some_payload : ¬ 1 + payload.length < 1 := by omega
  simp only [SegmentCoordinator.readMessagePayload, found, head, SegmentCoordinator.eof,
    Fallible.ok_bind, total, some_payload, ↓reduceIte, Nat.add_sub_cancel_left, tail, kind, sum,
    ne_eq, not_true_eq_false]

theorem readMessagePayload_at (length : Nat) {data : Bytes} {segmentId : Nat}
    {before after : Bytes}
    (found : w.dir.get? (segmentPath segmentId) =
      some (before ++ recordBytes crc32 ⟨.enqueue, data⟩ ++ after))
    (fits : WalEntry.Fits ⟨.enqueue, data⟩) :
    w.readMessagePayload crc32 segmentId before.length length =
      SegmentCoordinator.payloadFields data := by
  have total : 1 + data.length < 256 ^ 4 := by
    simp only [WalEntry.Fits, walHeaderSize] at fits
    omega
  have stored : (crc32 (EntryType.enqueue.toByte :: data)).toNat < 256 ^ 4 := by
    have := (crc32 (EntryType.enqueue.toByte :: data)).toNat_lt
    omega
  generalize len : toBeBytes 4 (1 + data.length) = lenBytes
  generalize chk : toBeBytes 4 (crc32 (EntryType.enqueue.toByte :: data)).toNat = crcBytes
  have lenSize : lenBytes.length = 4 := by rw [← len, toBeBytes_length]
  have crcSize : crcBytes.length = 4 := by rw [← chk, toBeBytes_length]
  have shape : (before ++ recordBytes crc32 ⟨.enqueue, data⟩ ++ after).drop before.length =
      (lenBytes ++ crcBytes ++ [EntryType.enqueue.toByte]) ++ (data ++ after) := by
    rw [List.append_assoc, List.drop_left' rfl, recordBytes, len, chk]
    simp
  have head : readSlice walHeaderSize
      ((before ++ recordBytes crc32 ⟨.enqueue, data⟩ ++ after).drop before.length) =
        some (lenBytes ++ crcBytes ++ [EntryType.enqueue.toByte], data ++ after) := by
    rw [shape]
    exact readSlice_append (by simp [lenSize, crcSize, walHeaderSize]) _
  apply readMessagePayload_of_reads found head
  · rw [List.append_assoc, List.take_left' lenSize, ← len, fromBeBytes_toBeBytes total]
  · exact readSlice_append rfl after
  · rw [List.getD_eq_getElem?_getD, List.getElem?_append_right (by simp [lenSize, crcSize])]
    simp [lenSize, crcSize]
  · rw [List.append_assoc, List.drop_left' lenSize, List.take_left' crcSize, ← chk,
      fromBeBytes_toBeBytes stored]

/-- The position returned by `log_enqueue`, after any further appends. -/
theorem walOf_readMessagePayload {crc32 : Bytes → UInt32} {max : Nat} {before : List WalEntry}
    (after : List WalEntry) {queue : String} {msgId : UInt64} {exchange routingKey : String}
    {headers body : Bytes} (fits : ∀ e ∈ before, e.Fits)
    (fitsHere : (enqueueEntry queue msgId exchange routingKey headers body).Fits)
    (short : ShortFields queue exchange routingKey) (length : Nat) :
    let place := ((walOf crc32 max before).logEnqueue crc32 queue msgId exchange routingKey
      headers body).2
    (walOf crc32 max (before ++ enqueueEntry queue msgId exchange routingKey headers body ::
      after)).readMessagePayload crc32 place.1 place.2.1 length = .ok (headers, body) := by
  intro place
  obtain ⟨full, cur, h, _⟩ := walOf_layout crc32 max fits
  obtain ⟨front, there, offset⟩ := append_position crc32 h.segments
    (enqueueEntry queue msgId exchange routingKey headers body)
  obtain ⟨more, later⟩ := logAll_extends_files crc32 after there
  rw [← walOf_logAll, logAll_cons, ← payloadFields_enqueue short fitsHere]
  have read := readMessagePayload_at length later fitsHere
  rw [offset] at read
  exact read

/-- The log reads back as the appended entries, and every position returned by
    `log_enqueue` as the headers and body it was given, after any further
    appends and rotations. -/
theorem wal_round_trip (crc32 : Bytes → UInt32) (maxSegmentSize : Nat) (es : List WalEntry)
    (fits : ∀ e ∈ es, e.Fits) :
    ((SegmentCoordinator.new ∅ maxSegmentSize).logAll crc32 es).readAllEntries crc32 = es ∧
    ∀ before after queue msgId exchange routingKey headers body,
      es = before ++ enqueueEntry queue msgId exchange routingKey headers body :: after →
      ShortFields queue exchange routingKey →
      let place := (((SegmentCoordinator.new ∅ maxSegmentSize).logAll crc32 before).logEnqueue crc32
        queue msgId exchange routingKey headers body).2
      ((SegmentCoordinator.new ∅ maxSegmentSize).logAll crc32 es).readMessagePayload crc32
        place.1 place.2.1 place.2.2 = .ok (headers, body) := by
  constructor
  · exact walOf_readAllEntries fits
  · rintro before after queue msgId exchange routingKey headers body rfl short
    intro place
    have fitsBefore : ∀ e ∈ before, e.Fits := fun e he => fits e (by simp [he])
    have fitsHere := fits (enqueueEntry queue msgId exchange routingKey headers body) (by simp)
    exact walOf_readMessagePayload after fitsBefore fitsHere short place.2.2

theorem wal_round_trip_rotating :
    let es := [declareQueueEntry "orders" true, ackEntry 7,
      enqueueEntry "orders" 42 "" "orders" [0, 0] [104, 105], ackEntry 42]
    ((SegmentCoordinator.new ∅ 64).logAll crc32Ieee es).readAllEntries crc32Ieee = es ∧
    ((SegmentCoordinator.new ∅ 64).logAll crc32Ieee es).readMessagePayload crc32Ieee 2 0 48 =
      .ok ([0, 0], [104, 105]) := by
  intro es
  have fits : ∀ e ∈ es, e.Fits := by decide
  have trip := wal_round_trip crc32Ieee 64 es fits
  refine ⟨trip.1, ?_⟩
  exact trip.2 [declareQueueEntry "orders" true, ackEntry 7] [ackEntry 42] "orders" 42 "" "orders"
    [0, 0] [104, 105] rfl (by decide)

end RocketmqBroker
