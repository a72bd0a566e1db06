import RocketmqBroker.Lib.Fallible
import RocketmqBroker.Lib.FinMap
import RocketmqBroker.Storage.WalEntry

/-!
What the schema checks read of a compiled schema: the fields of its message descriptor
(schema/validate.rs). Enum and message types are opaque here. Two kinds are equal when the
types they name are, so `ε` and `μ` stand for the described types.
-/
namespace RocketmqBroker

inductive Kind (ε μ : Type) where
  | double | float
  | int32 | int64 | uint32 | uint64 | sint32 | sint64
  | fixed32 | fixed64 | sfixed32 | sfixed64
  | bool | string | bytes
  | enum (descriptor : ε)
  | message (descriptor : μ)
  deriving DecidableEq, Repr

inductive Cardinality where
  | optional | required | repeated
  deriving DecidableEq, Repr

structure FieldDescriptor (ε μ : Type) where
  name : String
  number : UInt32
  kind : Kind ε μ
  cardinality : Cardinality
  deriving DecidableEq, Repr

def FieldDescriptor.isRepeated {ε μ : Type} (f : FieldDescriptor ε μ) : Bool :=
  f.cardinality == .repeated

/-- A pool takes no message that uses a name or a number twice. -/
structure MessageDescriptor (ε μ : Type) where
  fields : List (FieldDescriptor ε μ)
  names_nodup : (fields.map (·.name)).Nodup
  numbers_nodup : (fields.map (·.number)).Nodup

def oneField {ε μ : Type} (f : FieldDescriptor ε μ) : MessageDescriptor ε μ where
  fields := [f]
  names_nodup := List.nodup_singleton _
  numbers_nodup := List.nodup_singleton _

structure FieldTypeMismatch (ε μ : Type) where
  fieldName : String
  queueKind : Kind ε μ
  gotKind : Kind ε μ
  deriving DecidableEq, Repr

inductive SchemaValidationError (ε μ : Type) where
  | decodeFailed (err : String)
  | trailingBytes (unconsumedLen : Nat)
  | wrongContentType (got : Option String)
  | missingFields (fields : List String)
  | invalidJson (err : String)
  | consumerExtraFields (fields : List String)
  | typeMismatch (errors : List (FieldTypeMismatch ε μ))
  | schemaConflict (differences : List String)
  deriving DecidableEq, Repr

variable {ε μ : Type}

namespace MessageDescriptor
variable {d : MessageDescriptor ε μ} {f g : FieldDescriptor ε μ}

theorem name_inj (hf : f ∈ d.fields) (hg : g ∈ d.fields) (same : f.name = g.name) : f = g :=
  List.inj_on_of_nodup_map d.names_nodup hf hg same

end MessageDescriptor

theorem each_found_iff {α β : Type} {l : List α} {look : α → Option β} {P : α → β → Prop} :
    ((∀ a ∈ l, ∃ b, look a = some b) ∧ ∀ a ∈ l, ∀ b, look a = some b → P a b) ↔
      ∀ a ∈ l, ∃ b, look a = some b ∧ P a b := by
  constructor
  · rintro ⟨found, right⟩ a member
    obtain ⟨b, here⟩ := found a member
    exact ⟨b, here, right a member b here⟩
  · intro all
    refine ⟨fun a member => ?_, fun a member b here => ?_⟩
    · obtain ⟨b, here, -⟩ := all a member
      exact ⟨b, here⟩
    · obtain ⟨b', here', right⟩ := all a member
      exact Option.some_inj.mp (here'.symm.trans here) ▸ right

/-! The maps from names to fields that the checks build. -/

def byName (fields : List (FieldDescriptor ε μ)) : FinMap String (FieldDescriptor ε μ) :=
  fields.foldl (fun m f => m.insert f.name f) ∅

namespace MessageDescriptor
variable (d : MessageDescriptor ε μ) (n : String) (f : FieldDescriptor ε μ)

theorem get?_byName : (byName d.fields).get? n = some f ↔ f ∈ d.fields ∧ f.name = n := by
  unfold byName
  rw [FinMap.get?_foldl_insert d.names_nodup]
  simp

end MessageDescriptor

end RocketmqBroker
