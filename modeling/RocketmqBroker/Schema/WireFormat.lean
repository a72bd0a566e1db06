import RocketmqBroker.Schema.Descriptors

/-!
Protobuf payloads under a descriptor (schema/validate.rs). The decoder is third-party code. What
stands here of it is how a field finds its value: a payload is a run of records, and a field of
the message reads those that carry its number. Oneofs are left out.
-/
namespace RocketmqBroker

structure WireFormat (ε μ ρ ν : Type) where
  records : Bytes → Option (List (UInt32 × ρ))
  value : Kind ε μ → Cardinality → List ρ → Option ν
  encodedLen : MessageDescriptor ε μ → List (String × ν) → Nat
  decodeError : MessageDescriptor ε μ → Bytes → String

structure DynamicMessage (ρ ν : Type) where
  values : List (String × ν)
  unknown : List (UInt32 × ρ)

def DynamicMessage.value? {ρ ν : Type} (m : DynamicMessage ρ ν) (name : String) : Option ν :=
  m.values.lookup name

variable {ε μ ρ ν : Type}

namespace WireFormat
variable (w : WireFormat ε μ ρ ν)

def read (records : List (UInt32 × ρ)) (f : FieldDescriptor ε μ) : Option ν :=
  w.value f.kind f.cardinality ((records.filter fun r => r.1 == f.number).map (·.2))

def readFields (records : List (UInt32 × ρ)) :
    List (FieldDescriptor ε μ) → Option (List (String × ν))
  | [] => some []
  | f :: fs => do
    let v ← w.read records f
    let values ← readFields records fs
    return (f.name, v) :: values

def decode (d : MessageDescriptor ε μ) (body : Bytes) : Option (DynamicMessage ρ ν) := do
  let records ← w.records body
  let values ← w.readFields records d.fields
  return ⟨values, records.filter fun r => d.fields.all fun f => f.number != r.1⟩

/-- A decoder that succeeds has used up the buffer, so only unknown fields are left to refuse. -/
def validateProtobufFields (d : MessageDescriptor ε μ) (body : Bytes) :
    Except (SchemaValidationError ε μ) Unit :=
  match w.decode d body with
  | none => .error (.decodeFailed (w.decodeError d body))
  | some msg =>
    if msg.unknown.isEmpty then .ok ()
    else .error (.trailingBytes (body.length - w.encodedLen d msg.values))

variable {w} {records : List (UInt32 × ρ)} {fs : List (FieldDescriptor ε μ)}

theorem readFields_cons_eq_some {f : FieldDescriptor ε μ} {values : List (String × ν)} :
    w.readFields records (f :: fs) = some values ↔ ∃ v rest, w.read records f = some v ∧
      w.readFields records fs = some rest ∧ values = (f.name, v) :: rest := by
  rw [readFields]
  cases w.read records f with
  | none => simp
  | some v =>
    cases w.readFields records fs with
    | none => simp
    | some rest => simp [eq_comm]

theorem exists_readFields (all : ∀ f ∈ fs, ∃ v, w.read records f = some v) :
    ∃ values, w.readFields records fs = some values := by
  induction fs with
  | nil => exact ⟨[], rfl⟩
  | cons f fs ih =>
    obtain ⟨v, read⟩ := all f List.mem_cons_self
    obtain ⟨rest, others⟩ := ih fun g member => all g (List.mem_cons_of_mem _ member)
    exact ⟨_, readFields_cons_eq_some.mpr ⟨v, rest, read, others, rfl⟩⟩

theorem lookup_readFields (nodup : (fs.map (·.name)).Nodup) {values : List (String × ν)}
    (decoded : w.readFields records fs = some values) :
    ∀ f ∈ fs, ∃ v, w.read records f = some v ∧ values.lookup f.name = some v := by
  induction fs generalizing values with
  | nil => exact fun _ member => absurd member List.not_mem_nil
  | cons g fs ih =>
    obtain ⟨v, rest, read, others, rfl⟩ := readFields_cons_eq_some.mp decoded
    rw [List.map_cons, List.nodup_cons] at nodup
    obtain ⟨fresh, nodup⟩ := nodup
    rintro f (_ | ⟨_, later⟩)
    · exact ⟨v, read, List.lookup_cons_self⟩
    · have apart : (f.name == g.name) = false :=
        beq_false_of_ne fun same => fresh (same ▸ List.mem_map_of_mem later)
      rw [List.lookup_cons, apart]
      exact ih nodup others f later

theorem decode_eq_some {d : MessageDescriptor ε μ} {body : Bytes} {msg : DynamicMessage ρ ν}
    (decoded : w.decode d body = some msg) :
    ∃ records, w.records body = some records ∧ w.readFields records d.fields = some msg.values := by
  unfold decode at decoded
  cases cut : w.records body with
  | none => simp [cut] at decoded
  | some records =>
    cases read : w.readFields records d.fields with
    | none => simp [cut, read] at decoded
    | some values =>
      simp only [cut, read, Option.pure_def, Option.bind_eq_bind, Option.bind_some,
        Option.some_inj] at decoded
      exact ⟨records, rfl, by rw [← decoded]; exact read⟩

theorem decode_subset {d d' : MessageDescriptor ε μ} (subset : d'.fields ⊆ d.fields)
    {body : Bytes} {msg : DynamicMessage ρ ν} (decoded : w.decode d body = some msg) :
    ∃ msg', w.decode d' body = some msg' ∧
      ∀ f ∈ d'.fields, ∃ v, msg.value? f.name = some v ∧ msg'.value? f.name = some v := by
  obtain ⟨records, cut, read⟩ := decode_eq_some decoded
  have values := lookup_readFields d.names_nodup read
  have readable : ∀ f ∈ d'.fields, ∃ v, w.read records f = some v := by
    intro f member
    obtain ⟨v, has, -⟩ := values f (subset member)
    exact ⟨v, has⟩
  obtain ⟨values', read'⟩ := exists_readFields readable
  refine ⟨_, by simp only [decode, cut, read', Option.bind_eq_bind, Option.bind_some]; rfl, ?_⟩
  intro f member
  obtain ⟨v, has, found⟩ := values f (subset member)
  obtain ⟨v', has', found'⟩ := lookup_readFields d'.names_nodup read' f member
  have same : v' = v := Option.some_inj.mp (has'.symm.trans has)
  exact ⟨v, found, same ▸ found'⟩

theorem validateProtobufFields_ok {d : MessageDescriptor ε μ} {body : Bytes}
    (accepted : w.validateProtobufFields d body = .ok ()) :
    ∃ msg, w.decode d body = some msg ∧ msg.unknown = [] := by
  unfold validateProtobufFields at accepted
  cases decoded : w.decode d body with
  | none => simp [decoded] at accepted
  | some msg =>
    rw [decoded] at accepted
    dsimp only at accepted
    split at accepted
    · rename_i none_left
      exact ⟨msg, rfl, List.isEmpty_iff.mp none_left⟩
    · cases accepted

end WireFormat

def shortRecords : Nat → Bytes → Option (List (UInt32 × Bytes))
  | _, [] => some []
  | n + 1, tag :: len :: rest =>
    if tag.toNat < 128 ∧ tag.toNat % 8 = 2 ∧ len.toNat < 128 ∧ len.toNat ≤ rest.length then
      (shortRecords n (rest.drop len.toNat)).map
        ((UInt32.ofNat (tag.toNat / 8), rest.take len.toNat) :: ·)
    else none
  | _, _ => none

/-- The last record of a singular field is its value. -/
def shortStrings : WireFormat Unit Unit Bytes (List Bytes) where
  records body := shortRecords body.length body
  value _ cardinality records :=
    some (if cardinality = .repeated then records else records.getLast?.toList)
  encodedLen _ values := (values.flatMap (·.2)).foldl (fun len r => len + 2 + r.length) 0
  decodeError _ _ := "failed to decode Protobuf message"

def nameField (number : UInt32) (cardinality : Cardinality) : MessageDescriptor Unit Unit :=
  oneField ⟨"name", number, .string, cardinality⟩

end RocketmqBroker
