import RocketmqBroker.Publishing.Validation
import RocketmqBroker.Schema.Descriptors

/-!
Schema errors as reply texts (schema/error.rs). The text is JSON with the fields that are wrong,
and is shrunk to fit Channel.Close. How a string is quoted is the serializer's business, which
never fails on these types, so `quote` stands for it.
-/
namespace RocketmqBroker

inductive ErrorCode where
  | schemaTypeMismatch | schemaExtraFields | schemaMissingFields | schemaConflict
  | schemaCompileFailed | schemaUnsupportedType
  | validationTypeMismatch | validationInvalidJson
  | missingArgument
  deriving DecidableEq, Repr

def ErrorCode.text : ErrorCode → String
  | .schemaTypeMismatch => "SchemaTypeMismatch"
  | .schemaExtraFields => "SchemaExtraFields"
  | .schemaMissingFields => "SchemaMissingFields"
  | .schemaConflict => "SchemaConflict"
  | .schemaCompileFailed => "SchemaCompileFailed"
  | .schemaUnsupportedType => "SchemaUnsupportedType"
  | .validationTypeMismatch => "ValidationTypeMismatch"
  | .validationInvalidJson => "ValidationInvalidJson"
  | .missingArgument => "MissingArgument"

structure FieldError where
  name : String
  expected : String
  got : String
  deriving DecidableEq, Repr

structure BrokerError where
  code : ErrorCode
  queue : String
  fields : List FieldError
  truncated : Bool
  deriving DecidableEq, Repr

section
variable {ε μ : Type}

def protoKindName : Kind ε μ → String
  | .double => "double"
  | .float => "float"
  | .int32 => "int32"
  | .int64 => "int64"
  | .uint32 => "uint32"
  | .uint64 => "uint64"
  | .sint32 => "sint32"
  | .sint64 => "sint64"
  | .fixed32 => "fixed32"
  | .fixed64 => "fixed64"
  | .sfixed32 => "sfixed32"
  | .sfixed64 => "sfixed64"
  | .bool => "bool"
  | .string => "string"
  | .bytes => "bytes"
  | .enum _ => "enum"
  | .message _ => "message"

def toBrokerError (queue : String) : SchemaValidationError ε μ → BrokerError
  | .typeMismatch errors =>
    ⟨.schemaTypeMismatch, queue,
      errors.map fun e => ⟨e.fieldName, protoKindName e.queueKind, protoKindName e.gotKind⟩, false⟩
  | .consumerExtraFields fields =>
    ⟨.schemaExtraFields, queue, fields.map fun name => ⟨name, "undefined", "declared"⟩, false⟩
  | .missingFields fields =>
    ⟨.schemaMissingFields, queue, fields.map fun name => ⟨name, "required", "missing"⟩, false⟩
  | .schemaConflict _ => ⟨.schemaConflict, queue, [], false⟩
  | .invalidJson _ => ⟨.validationInvalidJson, queue, [], false⟩
  | .decodeFailed _ => ⟨.validationTypeMismatch, queue, [], false⟩
  | .trailingBytes _ => ⟨.validationTypeMismatch, queue, [], false⟩
  | .wrongContentType _ => ⟨.validationTypeMismatch, queue, [], false⟩

end

/-! The text. -/

def maxReplyTextLen : Nat := 255

section
variable (quote : String → String)

def FieldError.toJson (f : FieldError) : String :=
  "\x7b\"name\":" ++ quote f.name ++ ",\"expected\":" ++ quote f.expected ++ ",\"got\":" ++
    quote f.got ++ "\x7d"

def fieldsJson : List FieldError → String
  | [] => ""
  | [f] => f.toJson quote
  | f :: g :: rest => f.toJson quote ++ "," ++ fieldsJson (g :: rest)

def BrokerError.toJson (e : BrokerError) : String :=
  "\x7b\"code\":" ++ quote e.code.text ++ ",\"queue\":" ++ quote e.queue ++
    (if e.fields.isEmpty then "" else ",\"fields\":[" ++ fieldsJson quote e.fields ++ "]") ++
    (if e.truncated then ",\"truncated\":true" else "") ++ "\x7d"

/-- The loop, by the number of fields that are left. It ends with all of them dropped. -/
def BrokerError.shrink : Nat → BrokerError → String
  | left + 2, e =>
    let shrunk := { e with fields := e.fields.dropLast, truncated := true }
    let json := shrunk.toJson quote
    if (strBytes json).length ≤ maxReplyTextLen then json else shrink (left + 1) shrunk
  | _, e => { e with fields := [], truncated := true : BrokerError }.toJson quote

def BrokerError.toReplyText (e : BrokerError) : String :=
  let full := e.toJson quote
  if (strBytes full).length ≤ maxReplyTextLen then full else shrink quote e.fields.length e

end

section
variable {quote : String → String} {e : BrokerError}

def BrokerError.frameLength (quote : String → String) (e : BrokerError) : Nat :=
  18 + (strBytes (quote e.code.text)).length + (strBytes (quote e.queue)).length

theorem BrokerError.length_toJson : (strBytes (e.toJson quote)).length = e.frameLength quote +
    (if e.fields.isEmpty then 0 else 12 + (strBytes (fieldsJson quote e.fields)).length) +
    (if e.truncated then 17 else 0) := by
  have code : (strBytes "\x7b\"code\":").length = 8 := by decide
  have queue : (strBytes ",\"queue\":").length = 9 := by decide
  have fields : (strBytes ",\"fields\":[").length = 11 := by decide
  have close : (strBytes "]").length = 1 := by decide
  have truncated : (strBytes ",\"truncated\":true").length = 17 := by decide
  have brace : (strBytes "\x7d").length = 1 := by decide
  have empty : (strBytes "").length = 0 := by decide
  unfold toJson frameLength
  simp only [strBytes_length_append, apply_ite strBytes, apply_ite List.length, code, queue, fields,
    close, truncated, brace, empty]
  split <;> split <;> omega

theorem five_le_fieldsJson {f : FieldError} {rest : List FieldError} :
    5 ≤ (strBytes (fieldsJson quote (f :: rest))).length := by
  have name : (strBytes "\x7b\"name\":").length = 8 := by decide
  have first : 8 ≤ (strBytes (f.toJson quote)).length := by
    unfold FieldError.toJson
    simp only [strBytes_length_append, name]
    omega
  cases rest with
  | nil =>
    rw [fieldsJson]
    omega
  | cons g rest =>
    rw [fieldsJson, strBytes_length_append, strBytes_length_append]
    omega

namespace BrokerError

theorem shrink_eq (left : Nat) (e : BrokerError) : ∃ fields, fields <+: e.fields ∧
    shrink quote left e =
      { e with fields := fields, truncated := true : BrokerError }.toJson quote ∧
    (FitsShortstr (shrink quote left e) ∨ fields = []) := by
  induction left using Nat.twoStepInduction generalizing e with
  | zero => exact ⟨[], List.nil_prefix, rfl, .inr rfl⟩
  | one => exact ⟨[], List.nil_prefix, rfl, .inr rfl⟩
  | more left _ ih =>
    rw [shrink]
    split
    · rename_i fits
      exact ⟨e.fields.dropLast, List.dropLast_prefix _, rfl, .inl fits⟩
    · obtain ⟨fields, first, same, ends⟩ :=
        ih { e with fields := e.fields.dropLast, truncated := true }
      exact ⟨fields, first.trans (List.dropLast_prefix _), same, ends⟩

/-- What a text has at least, once nothing can be dropped. -/
def shortest (quote : String → String) (e : BrokerError) : Nat :=
  e.frameLength quote + if e.fields = [] ∧ e.truncated = false then 0 else 17

theorem shortest_le : e.shortest quote ≤ (strBytes (e.toJson quote)).length := by
  rw [length_toJson, shortest]
  cases fields : e.fields with
  | nil => cases e.truncated <;> simp
  | cons f rest =>
    have some_text := @five_le_fieldsJson quote f rest
    simp only [List.isEmpty_cons, Bool.false_eq_true, if_false, reduceCtorEq, false_and]
    omega

theorem length_marked (fields : List FieldError) : (strBytes
    ({ e with fields := fields, truncated := true : BrokerError }.toJson quote)).length =
    e.frameLength quote +
      (if fields.isEmpty then 0 else 12 + (strBytes (fieldsJson quote fields)).length) + 17 := by
  rw [length_toJson]
  rfl

theorem shortest_le_marked (fields : List FieldError) : e.shortest quote ≤ (strBytes
    ({ e with fields := fields, truncated := true : BrokerError }.toJson quote)).length := by
  rw [length_marked, shortest]
  split <;> omega

theorem toReplyText_fits_iff :
    FitsShortstr (e.toReplyText quote) ↔ e.shortest quote ≤ 255 := by
  unfold toReplyText
  dsimp only
  split
  · rename_i full
    exact iff_of_true full (shortest_le.trans full)
  · rename_i long
    obtain ⟨fields, -, same, ends⟩ := @shrink_eq quote e.fields.length e
    constructor
    · intro fits
      rw [same] at fits
      exact (shortest_le_marked fields).trans fits
    · intro short
      rcases ends with fits | rfl
      · exact fits
      · -- With nothing to drop and no mark, the full text was the shortest one.
        have marked : ¬ (e.fields = [] ∧ e.truncated = false) := by
          rintro ⟨no_fields, unmarked⟩
          rw [length_toJson, no_fields, unmarked] at long
          rw [shortest, if_pos ⟨no_fields, unmarked⟩] at short
          exact long short
        rw [shortest, if_neg marked] at short
        rw [FitsShortstr, same, length_marked]
        exact short

theorem toReplyText_keeps : ∃ fields truncated, fields <+: e.fields ∧
    e.toReplyText quote = { e with fields := fields, truncated := truncated }.toJson quote ∧
    (fields ≠ e.fields → truncated = true) := by
  unfold toReplyText
  dsimp only
  split
  · exact ⟨e.fields, e.truncated, List.prefix_rfl, rfl, fun dropped => absurd rfl dropped⟩
  · obtain ⟨fields, first, same, -⟩ := @shrink_eq quote e.fields.length e
    exact ⟨fields, true, first, same, fun _ => rfl⟩

end BrokerError

end

/-- A text that can be sent, and says so where it has not all the fields. -/
structure BrokerError.Told (quote : String → String) (e : BrokerError) (text : String) : Prop where
  fits : FitsShortstr text
  sent : ∀ code classId methodId, (buildChannelClose code text classId methodId).2 = true
  kept : ∃ fields truncated, fields <+: e.fields ∧
    text = { e with fields := fields, truncated := truncated }.toJson quote ∧
    (fields ≠ e.fields → truncated = true)

/-- The code and the queue have to fit by themselves, with the mark where there was something to
    drop: the last resort does not shorten them. -/
theorem toReplyText_told (quote : String → String) (e : BrokerError) :
    e.Told quote (e.toReplyText quote) ↔
      18 + (strBytes (quote e.code.text)).length + (strBytes (quote e.queue)).length +
        (if e.fields = [] ∧ e.truncated = false then 0 else 17) ≤ 255 := by
  constructor
  · exact fun told => BrokerError.toReplyText_fits_iff.mp told.fits
  · intro short
    have fits := BrokerError.toReplyText_fits_iff.mpr short
    exact ⟨fits, buildChannelClose_ok fits, BrokerError.toReplyText_keeps⟩

def jsonEscape (c : Char) : String :=
  match c.toNat with
  | 34 => "\\\""
  | 92 => "\\\\"
  | 8 => "\\b"
  | 9 => "\\t"
  | 10 => "\\n"
  | 12 => "\\f"
  | 13 => "\\r"
  | n =>
    if n < 32 then
      "\\u00" ++ String.ofList [Nat.digitChar (n / 16), Nat.digitChar (n % 16)]
    else String.singleton c

def jsonEscapes : List Char → String
  | [] => ""
  | c :: cs => jsonEscape c ++ jsonEscapes cs

def jsonQuote (s : String) : String := "\"" ++ jsonEscapes s.toList ++ "\""

example : BrokerError.toReplyText jsonQuote
    (toBrokerError "orders" (.missingFields ["id"] : SchemaValidationError Unit Unit)) =
    "\x7b\"code\":\"SchemaMissingFields\",\"queue\":\"orders\",\"fields\":[\x7b\"name\":\"id\"," ++
      "\"expected\":\"required\",\"got\":\"missing\"\x7d]\x7d" := by decide +kernel

def longestQueue : String := String.ofList (List.replicate 255 'q')

def missingId : BrokerError :=
  toBrokerError longestQueue (.missingFields ["id"] : SchemaValidationError Unit Unit)

theorem length_jsonEscapes_replicate (n : Nat) :
    (strBytes (jsonEscapes (List.replicate n 'q'))).length = n := by
  induction n with
  | zero => decide
  | succ n ih =>
    have one : (strBytes (jsonEscape 'q')).length = 1 := by decide +kernel
    rw [List.replicate_succ, jsonEscapes, strBytes_length_append, one, ih, Nat.add_comm]

theorem missingId_too_long : ¬ FitsShortstr (missingId.toReplyText jsonQuote) := by
  have code : (strBytes (jsonQuote missingId.code.text)).length = 21 := by decide +kernel
  have queue : (strBytes (jsonQuote missingId.queue)).length = 257 := by
    have mark : (strBytes "\"").length = 1 := by decide
    have named : missingId.queue.toList = List.replicate 255 'q' := String.toList_ofList
    rw [jsonQuote, named, strBytes_length_append, strBytes_length_append,
      length_jsonEscapes_replicate, mark]
  rw [BrokerError.toReplyText_fits_iff, BrokerError.shortest, BrokerError.frameLength, code, queue]
  omega

/-- A queue name that a client can use, and a text that Channel.Close cannot carry. -/
theorem longest_queue_unanswerable :
    FitsShortstr longestQueue ∧ ¬ FitsShortstr (missingId.toReplyText jsonQuote) ∧
    (buildChannelClose preconditionFailed (missingId.toReplyText jsonQuote) classBasic
      methodBasicPublish).2 = false ∧
    ¬ missingId.Told jsonQuote (missingId.toReplyText jsonQuote) := by
  have short : FitsShortstr longestQueue := by decide +kernel
  have unwritten : (writeShortstr (missingId.toReplyText jsonQuote)).2 = false :=
    eq_false_of_ne_true fun written => missingId_too_long (writeShortstr_ok_iff.mp written)
  refine ⟨short, missingId_too_long, ?_, fun told => missingId_too_long told.fits⟩
  simp [buildChannelClose, Written.andThen, unwritten]

end RocketmqBroker
