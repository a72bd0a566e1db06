import RocketmqBroker.Protocol.FrameCodec
import RocketmqBroker.Protocol.ContentFrames

/-!
The buffers that a body is cut into, read back. Where the maximum leaves no room for a byte
there is one buffer, whatever its length; else there are as few as can be.
-/
namespace RocketmqBroker
open BigEndian ByteReader

/-- `body.chunks(n)`, where `n` is not 0. -/
def chunks (size : Nat) : Nat → Bytes → List Bytes
  | 0, _ => []
  | fuel + 1, bs => if bs.isEmpty then [] else bs.take size :: chunks size fuel (bs.drop size)

/-- `body.chunks(n)` panics where `n` is 0. -/
def sliceChunks (size : Nat) (bs : Bytes) : Option (List Bytes) :=
  if size = 0 then none else some (chunks size bs.length bs)

/-- The frames are buffers. Nothing calls it. -/
def splitBodyFrames (channel : UInt16) (body : Bytes) (frameMax : UInt32) :
    Option (List Bytes) :=
  let maxBodyPerFrame := if frameMax > 8 then (frameMax - 8).toNat else body.length
  if body.isEmpty then some []
  else (sliceChunks maxBodyPerFrame body).map (·.map (encodeBodyFrame channel))

/-- A body frame of the channel is read from the buffer, to its end. -/
def ReadsAs (channel : UInt16) (buffer payload : Bytes) : Prop :=
  decodeFrame buffer = .ok (⟨frameBody, channel, payload⟩, buffer.length)

/-- The pieces make up the body, and each fits where a maximum leaves room at all. -/
def Cuts (frameMax : UInt32) (channel : UInt16) (body : Bytes) (pieces : List Bytes) : Prop :=
  pieces.flatten = body ∧
    ∀ piece ∈ pieces, 8 < frameMax → (encodeBodyFrame channel piece).length ≤ frameMax.toNat

section
variable {size fuel : Nat} {bs : Bytes}

theorem chunks_whole (enough : bs.length ≤ fuel * size) :
    (chunks size fuel bs).flatten = bs := by
  induction fuel generalizing bs with
  | zero =>
    rw [Nat.zero_mul, Nat.le_zero, List.length_eq_zero_iff] at enough
    rw [enough]
    rfl
  | succ fuel ih =>
    unfold chunks
    split
    · rename_i none_left
      exact (List.isEmpty_iff.mp none_left).symm
    · rw [List.flatten_cons, ih, List.take_append_drop]
      rw [List.length_drop]
      rw [Nat.succ_mul] at enough
      omega

theorem chunks_short {chunk : Bytes} (member : chunk ∈ chunks size fuel bs) :
    chunk.length ≤ size := by
  induction fuel generalizing bs with
  | zero => cases member
  | succ fuel ih =>
    unfold chunks at member
    split at member
    · cases member
    · cases List.mem_cons.mp member with
      | inl first =>
        rw [first, List.length_take]
        exact Nat.min_le_left _ _
      | inr later => exact ih later

theorem chunks_nonempty (positive : 0 < size) : ∀ chunk ∈ chunks size fuel bs, chunk ≠ [] := by
  induction fuel generalizing bs with
  | zero =>
    intro chunk member
    cases member
  | succ fuel ih =>
    unfold chunks
    intro chunk member
    split at member
    · cases member
    · rename_i some_left
      cases List.mem_cons.mp member with
      | inl first =>
        rw [first, Ne, List.take_eq_nil_iff, ← List.isEmpty_iff]
        rintro (none_taken | none_left)
        · omega
        · exact some_left none_left
      | inr later => exact ih chunk later

theorem chunks_few (positive : 0 < size) :
    (chunks size fuel bs).length * size < bs.length + size := by
  induction fuel generalizing bs with
  | zero =>
    change 0 * size < _
    omega
  | succ fuel ih =>
    unfold chunks
    split
    · rw [List.length_nil]
      omega
    · rename_i some_left
      have some_bytes : 0 < bs.length := by
        rw [List.length_pos_iff, Ne, ← List.isEmpty_iff]
        exact some_left
      have later := @ih (bs.drop size)
      rw [List.length_drop] at later
      rw [List.length_cons, Nat.succ_mul]
      by_cases last : bs.length ≤ size
      · have none_behind : (chunks size fuel (bs.drop size)).length = 0 := by
          refine Nat.eq_zero_of_not_pos fun some_behind => ?_
          have full := Nat.mul_le_mul_right size some_behind
          omega
        rw [none_behind]
        omega
      · omega

theorem flatten_length_le {pieces : List Bytes} (short : ∀ piece ∈ pieces, piece.length ≤ size) :
    pieces.flatten.length ≤ pieces.length * size := by
  induction pieces with
  | nil => exact Nat.zero_le _
  | cons piece pieces ih =>
    obtain ⟨one, others⟩ := List.forall_mem_cons.mp short
    have rest := ih others
    rw [List.flatten_cons, List.length_append, List.length_cons, Nat.succ_mul]
    omega

/-- No other cut into pieces of that size has fewer. -/
theorem chunks_least (positive : 0 < size) {pieces : List Bytes} (whole : pieces.flatten = bs)
    (short : ∀ piece ∈ pieces, piece.length ≤ size) :
    (chunks size fuel bs).length ≤ pieces.length := by
  have few := @chunks_few size fuel bs positive
  have many := flatten_length_le short
  rw [whole] at many
  have below : (chunks size fuel bs).length * size < (pieces.length + 1) * size := by
    rw [Nat.succ_mul]
    omega
  exact Nat.le_of_lt_succ (Nat.lt_of_mul_lt_mul_right below)

end

section
variable {channel : UInt16} {body : Bytes} {frameMax : UInt32}

theorem encodeBodyFrame_length (channel : UInt16) (payload : Bytes) :
    (encodeBodyFrame channel payload).length = payload.length + 8 := by
  rw [encodeBodyFrame_eq]
  exact encode_length _

theorem readsAs_encodeBodyFrame {payload : Bytes} (short : payload.length < 2 ^ 32) :
    ReadsAs channel (encodeBodyFrame channel payload) payload := by
  have decoded := @decodeFrame_encode (bodyFrame channel payload) short []
  rw [List.append_nil] at decoded
  unfold ReadsAs
  rw [encodeBodyFrame_eq]
  exact decoded

def frameRoom (frameMax : UInt32) (body : Bytes) : Nat :=
  if frameMax > 8 then (frameMax - 8).toNat else body.length

theorem frameRoom_of_lt (enough : 8 < frameMax) :
    frameRoom frameMax body = frameMax.toNat - 8 := by
  have order : (8 : UInt32) ≤ frameMax := Nat.le_of_lt enough
  unfold frameRoom
  rw [if_pos enough, UInt32.toNat_sub_of_le _ _ order]
  rfl

theorem frameRoom_pos (some_bytes : body ≠ []) : 0 < frameRoom frameMax body := by
  by_cases enough : 8 < frameMax
  · have bound : 8 < frameMax.toNat := enough
    rw [frameRoom_of_lt enough]
    omega
  · unfold frameRoom
    rw [if_neg enough]
    exact List.length_pos_iff.mpr some_bytes

theorem splitBodyFrames_nil : splitBodyFrames channel [] frameMax = some [] := rfl

/-- There is no panic, since a body with a byte leaves no chunk of size 0. -/
theorem splitBodyFrames_of_ne (some_bytes : body ≠ []) :
    splitBodyFrames channel body frameMax =
      some ((chunks (frameRoom frameMax body) body.length body).map (encodeBodyFrame channel)) := by
  have positive := @frameRoom_pos body frameMax some_bytes
  have some_left : ¬ body.isEmpty = true := fun none_left =>
    some_bytes (List.isEmpty_iff.mp none_left)
  unfold splitBodyFrames
  change (if body.isEmpty = true then some [] else
    (sliceChunks (frameRoom frameMax body) body).map _) = _
  rw [if_neg some_left]
  unfold sliceChunks
  rw [if_neg (Nat.ne_of_gt positive)]
  rfl

theorem Cuts.short {pieces : List Bytes} (cuts : Cuts frameMax channel body pieces) :
    ∀ piece ∈ pieces, piece.length ≤ frameRoom frameMax body := by
  intro piece member
  by_cases enough : 8 < frameMax
  · have fits := cuts.2 piece member enough
    rw [encodeBodyFrame_length] at fits
    rw [frameRoom_of_lt enough]
    omega
  · unfold frameRoom
    rw [if_neg enough, ← cuts.1]
    exact (List.sublist_flatten_of_mem member).length_le

theorem chunks_cut (some_bytes : body ≠ []) :
    Cuts frameMax channel body (chunks (frameRoom frameMax body) body.length body) := by
  have positive := @frameRoom_pos body frameMax some_bytes
  refine ⟨chunks_whole (Nat.le_mul_of_pos_right _ positive), ?_⟩
  intro chunk member enough
  have bound : 8 < frameMax.toNat := enough
  have small := chunks_short member
  rw [frameRoom_of_lt enough] at small
  rw [encodeBodyFrame_length]
  omega

/-- A body shorter than 2^32 bytes is cut without a panic, into frames that are not empty,
    that are read back in turn as the body, that keep to the maximum, and as few as can be. -/
theorem body_frames_fewest (channel : UInt16) (frameMax : UInt32)
    (short : body.length < 2 ^ 32) : ∃ buffers payloads,
      splitBodyFrames channel body frameMax = some buffers ∧
      List.Forall₂ (ReadsAs channel) buffers payloads ∧
      (∀ payload ∈ payloads, payload ≠ []) ∧ payloads.flatten = body ∧
      (∀ buffer ∈ buffers, 8 < frameMax → buffer.length ≤ frameMax.toNat) ∧
      ∀ pieces, Cuts frameMax channel body pieces → buffers.length ≤ pieces.length := by
  by_cases none_left : body = []
  · subst none_left
    exact ⟨[], [], splitBodyFrames_nil, .nil, nofun, rfl, nofun, fun _ _ => Nat.zero_le _⟩
  · have positive := @frameRoom_pos body frameMax none_left
    have cut := @chunks_cut channel body frameMax none_left
    refine ⟨_, chunks (frameRoom frameMax body) body.length body, splitBodyFrames_of_ne none_left,
      ?_, chunks_nonempty positive, cut.1, ?_, ?_⟩
    · rw [List.forall₂_map_left_iff, List.forall₂_same]
      intro chunk member
      refine readsAs_encodeBodyFrame (Nat.lt_of_le_of_lt ?_ short)
      rw [← cut.1]
      exact (List.sublist_flatten_of_mem member).length_le
    · intro buffer member enough
      obtain ⟨chunk, here, rfl⟩ := List.mem_map.mp member
      exact cut.2 chunk here enough
    · intro pieces cuts
      rw [List.length_map]
      exact chunks_least positive cuts.1 cuts.short

end

theorem body_frames_fewest_five : ∃ buffers payloads,
    splitBodyFrames 1 [1, 2, 3, 4, 5] 10 = some buffers ∧
    List.Forall₂ (ReadsAs 1) buffers payloads ∧
    (∀ payload ∈ payloads, payload ≠ []) ∧ payloads.flatten = [1, 2, 3, 4, 5] ∧
    (∀ buffer ∈ buffers, (8 : UInt32) < 10 → buffer.length ≤ (10 : UInt32).toNat) ∧
    ∀ pieces, Cuts 10 1 [1, 2, 3, 4, 5] pieces → buffers.length ≤ pieces.length :=
  body_frames_fewest 1 10 (by decide)

end RocketmqBroker
