import RocketmqBroker.Schema.WireFormat

/-!
JSON payloads under a descriptor (schema/validate.rs). The check looks at the fields of the
message and at the outermost type of their values. `conforms` says what a value of a kind is: it
goes into nested messages, and knows that a repeated field is an array.
-/
namespace RocketmqBroker

inductive Json where
  | null
  | bool (b : Bool)
  | number (literal : String)
  | string (s : String)
  | array (items : List Json)
  | object (members : List (String × Json))

inductive JsonType where
  | null | boolean | number | string | array | object
  deriving DecidableEq, Repr

def Json.type : Json → JsonType
  | .null => .null
  | .bool _ => .boolean
  | .number _ => .number
  | .string _ => .string
  | .array _ => .array
  | .object _ => .object

/-- The JSON parser is third-party code. -/
structure JsonTools where
  parse : String → Except String Json
  utf8Error : Bytes → String

variable {ε μ ρ ν : Type}

/-- The types that the value of a singular field may have. -/
def Kind.jsonTypes : Kind ε μ → List JsonType
  | .double | .float | .int32 | .int64 | .uint32 | .uint64 | .sint32 | .sint64
  | .fixed32 | .fixed64 | .sfixed32 | .sfixed64 => [.number]
  | .bool => [.boolean]
  | .string | .bytes => [.string]
  | .enum _ => [.number, .string]
  | .message _ => [.object]

/-! The check. -/

def mismatch (val : Json) : Kind ε μ → Bool
  | .string => val.type != .string
  | .bool => val.type != .boolean
  | .bytes => val.type != .string
  | .int32 | .int64 | .uint32 | .uint64 | .sint32 | .sint64 | .fixed32 | .fixed64
  | .sfixed32 | .sfixed64 | .float | .double => val.type != .number
  | .enum _ => val.type != .number && val.type != .string
  | .message _ => val.type != .object

def jsonValToKind : Json → Kind ε μ
  | .bool _ => .bool
  | .number _ => .double
  | .string _ => .string
  | _ => .string

section
variable (d : MessageDescriptor ε μ) (members : List (String × Json))

def missingMembers : List String :=
  (d.fields.filter fun f => (members.lookup f.name).isNone).map (·.name)

def typeErrors : List (FieldTypeMismatch ε μ) :=
  d.fields.filterMap fun f =>
    match members.lookup f.name with
    | none => none
    | some val => if mismatch val f.kind then some ⟨f.name, f.kind, jsonValToKind val⟩ else none

def validateMembers : Except (SchemaValidationError ε μ) Unit :=
  if missingMembers d members ≠ [] then .error (.missingFields (missingMembers d members))
  else if typeErrors d members ≠ [] then .error (.typeMismatch (typeErrors d members))
  else .ok ()

def validateJsonFields (tools : JsonTools) (body : Bytes) :
    Except (SchemaValidationError ε μ) Unit :=
  match fromUtf8 body with
  | none => .error (.invalidJson (tools.utf8Error body))
  | some text =>
    match tools.parse text with
    | .error err => .error (.invalidJson err)
    | .ok (.object members) => validateMembers d members
    | .ok _ => .error (.invalidJson "expected a JSON object, got other type")

/-- A body that starts with an opening brace is JSON. -/
def validateMessage (w : WireFormat ε μ ρ ν) (tools : JsonTools) (body : Bytes) :
    Except (SchemaValidationError ε μ) Unit :=
  if body.head? = some 0x7B then validateJsonFields d tools body
  else w.validateProtobufFields d body

end

/-! What it should accept. -/

mutual

def conforms (pool : μ → MessageDescriptor ε μ) : Json → Bool → Kind ε μ → Bool
  | .array items, true, kind => conformsAll pool items kind
  | _, true, _ => false
  | .object members, false, .message m =>
    (pool m).fields.all fun f =>
      match (verdicts pool members).lookup f.name with
      | none => false
      | some verdict => verdict f.isRepeated f.kind
  | _, false, .message _ => false
  | val, false, kind => kind.jsonTypes.contains val.type

def conformsAll (pool : μ → MessageDescriptor ε μ) : List Json → Kind ε μ → Bool
  | [], _ => true
  | val :: rest, kind => conforms pool val false kind && conformsAll pool rest kind

def verdicts (pool : μ → MessageDescriptor ε μ) :
    List (String × Json) → List (String × (Bool → Kind ε μ → Bool))
  | [] => []
  | (name, val) :: rest => (name, conforms pool val) :: verdicts pool rest

end

section
variable {pool : μ → MessageDescriptor ε μ} {val : Json} {kind : Kind ε μ}

theorem mismatch_iff : mismatch val kind = true ↔ val.type ∉ kind.jsonTypes := by
  cases kind <;> simp [mismatch, Kind.jsonTypes]

theorem array_mem_jsonTypes : JsonType.array ∉ kind.jsonTypes := by
  cases kind <;> simp [Kind.jsonTypes]

theorem lookup_verdicts (members : List (String × Json)) (name : String) :
    (verdicts pool members).lookup name = (members.lookup name).map (conforms pool) := by
  induction members with
  | nil => rfl
  | cons first rest ih =>
    obtain ⟨other, val⟩ := first
    rw [verdicts, List.lookup_cons, List.lookup_cons]
    cases name == other with
    | true => rfl
    | false => exact ih

theorem conformsAll_iff {items : List Json} : conformsAll pool items kind = true ↔
    ∀ item ∈ items, conforms pool item false kind = true := by
  induction items with
  | nil => simp [conformsAll]
  | cons item rest ih => rw [conformsAll, Bool.and_eq_true, ih, List.forall_mem_cons]

theorem conforms_repeated : conforms pool val true kind = true ↔
    ∃ items, val = .array items ∧ ∀ item ∈ items, conforms pool item false kind = true := by
  cases val with
  | array items => simp [conforms, conformsAll_iff]
  | null => simp [conforms]
  | bool => simp [conforms]
  | number => simp [conforms]
  | string => simp [conforms]
  | object => simp [conforms]

theorem conforms_message {m : μ} : conforms pool val false (.message m) = true ↔
    ∃ members, val = .object members ∧ ∀ f ∈ (pool m).fields, ∃ v,
      members.lookup f.name = some v ∧ conforms pool v f.isRepeated f.kind = true := by
  cases val with
  | object members =>
    simp only [conforms, List.all_eq_true, lookup_verdicts, Json.object.injEq, exists_eq_left']
    refine forall₂_congr fun f _ => ?_
    cases members.lookup f.name with
    | none => simp
    | some v => simp
  | null => simp [conforms]
  | bool => simp [conforms]
  | number => simp [conforms]
  | string => simp [conforms]
  | array => simp [conforms]

theorem conforms_scalar (scalar : ∀ m, kind ≠ .message m) :
    conforms pool val false kind = true ↔ val.type ∈ kind.jsonTypes := by
  cases kind with
  | message m => exact absurd rfl (scalar m)
  | _ => cases val <;> simp [conforms, Kind.jsonTypes, Json.type]

theorem type_of_conforms (fits : conforms pool val false kind = true) :
    val.type ∈ kind.jsonTypes := by
  by_cases message : ∃ m, kind = .message m
  · obtain ⟨m, rfl⟩ := message
    obtain ⟨members, rfl, -⟩ := conforms_message.mp fits
    exact List.mem_singleton.mpr rfl
  · exact (conforms_scalar fun m same => message ⟨m, same⟩).mp fits

end

section
variable (d : MessageDescriptor ε μ) (members : List (String × Json))

theorem missingMembers_eq_nil : missingMembers d members = [] ↔
    ∀ f ∈ d.fields, ∃ v, members.lookup f.name = some v := by
  unfold missingMembers
  rw [List.map_eq_nil_iff, List.filter_eq_nil_iff]
  refine forall₂_congr fun f _ => ?_
  rw [Option.isNone_iff_eq_none, ← ne_eq, Option.ne_none_iff_exists']

theorem typeErrors_eq_nil : typeErrors d members = [] ↔
    ∀ f ∈ d.fields, ∀ v, members.lookup f.name = some v → v.type ∈ f.kind.jsonTypes := by
  unfold typeErrors
  rw [List.filterMap_eq_nil_iff]
  refine forall₂_congr fun f _ => ?_
  cases members.lookup f.name with
  | none => simp
  | some v =>
    have wrong : mismatch v f.kind = false ↔ v.type ∈ f.kind.jsonTypes := by
      rw [← Bool.not_eq_true, mismatch_iff, not_not]
    simpa using wrong

theorem validateMembers_ok_iff : validateMembers d members = .ok () ↔
    ∀ f ∈ d.fields, ∃ v, members.lookup f.name = some v ∧ v.type ∈ f.kind.jsonTypes := by
  have passes : validateMembers d members = .ok () ↔
      missingMembers d members = [] ∧ typeErrors d members = [] := by
    unfold validateMembers
    rw [Fallible.refuse_eq_ok, Fallible.refuse_eq_ok, and_iff_left rfl]
  rw [passes, missingMembers_eq_nil, typeErrors_eq_nil, each_found_iff]

variable (pool : μ → MessageDescriptor ε μ)

def MembersConform : Prop :=
  ∀ f ∈ d.fields, ∃ v, members.lookup f.name = some v ∧
    conforms pool v f.isRepeated f.kind = true

variable {d members pool}

theorem MembersConform.not_ok {f : FieldDescriptor ε μ} (conform : MembersConform d members pool)
    (member : f ∈ d.fields) (repeated : f.isRepeated = true) :
    validateMembers d members ≠ .ok () := by
  intro accepted
  obtain ⟨v, found, fits⟩ := conform f member
  obtain ⟨v', found', typed⟩ := (validateMembers_ok_iff d members).mp accepted f member
  obtain rfl := Option.some_inj.mp (found.symm.trans found')
  rw [repeated] at fits
  obtain ⟨items, rfl, -⟩ := conforms_repeated.mp fits
  exact array_mem_jsonTypes typed

variable (d members) in
/-- All the fields are there, and the singular ones have the right outer type. -/
def Shaped : Prop :=
  ∀ f ∈ d.fields, ∃ v, members.lookup f.name = some v ∧
    (f.isRepeated = false → v.type ∈ f.kind.jsonTypes)

theorem shaped_of_ok (accepted : validateMembers d members = .ok ()) : Shaped d members := by
  intro f member
  obtain ⟨v, found, typed⟩ := (validateMembers_ok_iff d members).mp accepted f member
  exact ⟨v, found, fun _ => typed⟩

theorem MembersConform.shaped (conform : MembersConform d members pool) : Shaped d members := by
  intro f member
  obtain ⟨v, found, fits⟩ := conform f member
  exact ⟨v, found, fun singular => type_of_conforms (singular ▸ fits)⟩

/-- Only a repeated field makes the check refuse a shaped object. -/
theorem Shaped.refused_iff (shaped : Shaped d members) : validateMembers d members ≠ .ok () ↔
    ∃ f ∈ d.fields, f.isRepeated = true ∧
      ∀ v, members.lookup f.name = some v → v.type ∉ f.kind.jsonTypes := by
  rw [ne_eq, validateMembers_ok_iff]
  constructor
  · intro untyped
    push Not at untyped
    obtain ⟨f, member, wrong⟩ := untyped
    obtain ⟨v, found, typed⟩ := shaped f member
    refine ⟨f, member, ?_, wrong⟩
    by_contra singular
    exact wrong v found (typed (eq_false_of_ne_true singular))
  · rintro ⟨f, member, -, untyped⟩ typed
    obtain ⟨v, found, type⟩ := typed f member
    exact untyped v found type

theorem Shaped.conform (shaped : Shaped d members) (inside : ∀ f ∈ d.fields,
    f.isRepeated = false ∧ ∀ m, f.kind = .message m →
      ∀ v, members.lookup f.name = some v → conforms pool v false (.message m) = true) :
    MembersConform d members pool := by
  intro f member
  obtain ⟨v, found, typed⟩ := shaped f member
  obtain ⟨singular, message⟩ := inside f member
  refine ⟨v, found, ?_⟩
  rw [singular]
  by_cases nested : ∃ m, f.kind = .message m
  · obtain ⟨m, kind⟩ := nested
    rw [kind]
    exact message m kind v found
  · exact (conforms_scalar fun m same => nested ⟨m, same⟩).mpr (typed singular)

theorem not_conform_iff : ¬ MembersConform d members pool ↔ ∃ f ∈ d.fields,
    ∀ v, members.lookup f.name = some v → conforms pool v f.isRepeated f.kind = false := by
  unfold MembersConform
  push Not
  simp only [ne_eq, Bool.not_eq_true]

theorem validateMembers_exact (shaped : Shaped d members) :
    (validateMembers d members = .ok () ↔ MembersConform d members pool) ↔
      (∀ f ∈ d.fields, f.isRepeated = false ∧ ∀ m, f.kind = .message m →
        ∀ v, members.lookup f.name = some v → conforms pool v false (.message m) = true) ∨
      ((∃ f ∈ d.fields, f.isRepeated = true ∧
        ∀ v, members.lookup f.name = some v → v.type ∉ f.kind.jsonTypes) ∧
      ∃ f ∈ d.fields,
        ∀ v, members.lookup f.name = some v → conforms pool v f.isRepeated f.kind = false) := by
  rw [← shaped.refused_iff, ← not_conform_iff]
  constructor
  · intro exact_check
    by_cases conform : MembersConform d members pool
    · left
      intro f member
      have singular : f.isRepeated = false := by
        by_contra repeated
        exact conform.not_ok member (eq_true_of_ne_false repeated) (exact_check.mpr conform)
      obtain ⟨v, found, fits⟩ := conform f member
      refine ⟨singular, fun m kind v' found' => ?_⟩
      rw [← Option.some_inj.mp (found.symm.trans found'), ← kind, ← singular]
      exact fits
    · exact .inr ⟨fun accepted => conform (exact_check.mp accepted), conform⟩
  · rintro (inside | ⟨unaccepted, unconforming⟩)
    · refine iff_of_true ((validateMembers_ok_iff d members).mpr fun f member => ?_)
        (shaped.conform inside)
      obtain ⟨v, found, typed⟩ := shaped f member
      exact ⟨v, found, typed (inside f member).1⟩
    · exact iff_of_false unaccepted unconforming

end

/-- A body that is an object with a conforming value for every field. -/
def BodyConforms (tools : JsonTools) (pool : μ → MessageDescriptor ε μ)
    (d : MessageDescriptor ε μ) (body : Bytes) : Prop :=
  ∃ text members, fromUtf8 body = some text ∧ tools.parse text = .ok (.object members) ∧
    MembersConform d members pool

section
variable {tools : JsonTools} {pool : μ → MessageDescriptor ε μ} {d : MessageDescriptor ε μ}
  {body : Bytes} {text : String} {members : List (String × Json)}

theorem validateJsonFields_object (utf8 : fromUtf8 body = some text)
    (parsed : tools.parse text = .ok (.object members)) :
    validateJsonFields d tools body = validateMembers d members := by
  simp only [validateJsonFields, utf8, parsed]

theorem members_unique {text' : String} {members' : List (String × Json)}
    (utf8 : fromUtf8 body = some text) (parsed : tools.parse text = .ok (.object members))
    (utf8' : fromUtf8 body = some text') (parsed' : tools.parse text' = .ok (.object members')) :
    members = members' := by
  obtain rfl := Option.some_inj.mp (utf8.symm.trans utf8')
  rw [parsed, Except.ok.injEq, Json.object.injEq] at parsed'
  exact parsed'

theorem bodyConforms_object (utf8 : fromUtf8 body = some text)
    (parsed : tools.parse text = .ok (.object members)) :
    BodyConforms tools pool d body ↔ MembersConform d members pool := by
  constructor
  · rintro ⟨text', members', utf8', parsed', conform⟩
    exact members_unique utf8 parsed utf8' parsed' ▸ conform
  · exact fun conform => ⟨text, members, utf8, parsed, conform⟩

theorem exists_object (accepted : validateJsonFields d tools body = .ok ()) :
    ∃ text members, fromUtf8 body = some text ∧ tools.parse text = .ok (.object members) := by
  unfold validateJsonFields at accepted
  cases utf8 : fromUtf8 body with
  | none => simp [utf8] at accepted
  | some text =>
    cases parsed : tools.parse text with
    | error err => simp [utf8, parsed] at accepted
    | ok val =>
      cases val with
      | object members => exact ⟨text, members, rfl, parsed⟩
      | _ => simp [utf8, parsed] at accepted

end

/-- Which bodies the check decides rightly. A body that is no object, or lacks a field, or has a
    wrong outer type in a singular one, is refused and does not conform. -/
theorem validateMessage_conforms (w : WireFormat ε μ ρ ν) (tools : JsonTools)
    (pool : μ → MessageDescriptor ε μ) (d : MessageDescriptor ε μ) (body : Bytes)
    (brace : body.head? = some 0x7B) :
    (validateMessage d w tools body = .ok () ↔ BodyConforms tools pool d body) ↔
      ∀ text members, fromUtf8 body = some text → tools.parse text = .ok (.object members) →
        Shaped d members →
        (∀ f ∈ d.fields, f.isRepeated = false ∧ ∀ m, f.kind = .message m →
          ∀ v, members.lookup f.name = some v → conforms pool v false (.message m) = true) ∨
        ((∃ f ∈ d.fields, f.isRepeated = true ∧
          ∀ v, members.lookup f.name = some v → v.type ∉ f.kind.jsonTypes) ∧
        ∃ f ∈ d.fields,
          ∀ v, members.lookup f.name = some v → conforms pool v f.isRepeated f.kind = false) := by
  rw [validateMessage, if_pos brace]
  by_cases object : ∃ text members,
      fromUtf8 body = some text ∧ tools.parse text = .ok (.object members)
  · obtain ⟨text, members, utf8, parsed⟩ := object
    rw [validateJsonFields_object utf8 parsed, bodyConforms_object utf8 parsed]
    by_cases shaped : Shaped d members
    · rw [validateMembers_exact shaped]
      constructor
      · intro condition text' members' utf8' parsed' _
        exact members_unique utf8 parsed utf8' parsed' ▸ condition
      · exact fun condition => condition text members utf8 parsed shaped
    · have refused : validateMembers d members ≠ .ok () :=
        fun accepted => shaped (shaped_of_ok accepted)
      have unfit : ¬ MembersConform d members pool := fun conform => shaped conform.shaped
      refine iff_of_true (iff_of_false refused unfit) ?_
      intro text' members' utf8' parsed' shaped'
      exact absurd (members_unique utf8 parsed utf8' parsed' ▸ shaped') shaped
  · refine iff_of_true (iff_of_false (fun accepted => object (exists_object accepted)) ?_) ?_
    · rintro ⟨text, members, utf8, parsed, -⟩
      exact object ⟨text, members, utf8, parsed⟩
    · exact fun text members utf8 parsed => absurd ⟨text, members, utf8, parsed⟩ object

def fourTexts : JsonTools where
  parse text :=
    if text = "\x7b\"name\":\"a\"\x7d" then .ok (.object [("name", .string "a")])
    else if text = "\x7b\"tags\":[\"a\"]\x7d" then
      .ok (.object [("tags", .array [.string "a"])])
    else if text = "\x7b\"owner\":\x7b\x7d\x7d" then .ok (.object [("owner", .object [])])
    else if text = "\x7b\x7d" then .ok (.object [])
    else .error "expected value at line 1 column 1"
  utf8Error _ := "invalid utf-8 sequence of 1 bytes from index 0"

def tagsField : MessageDescriptor Unit Unit := oneField ⟨"tags", 1, .string, .repeated⟩

/-- The one message type of the pool has a name. -/
def ownerField : MessageDescriptor Unit Unit := oneField ⟨"owner", 1, .message (), .optional⟩

def tagsBody : Bytes := strBytes "\x7b\"tags\":[\"a\"]\x7d"

def ownerBody : Bytes := strBytes "\x7b\"owner\":\x7b\x7d\x7d"

theorem validateMessage_conforms_name :
    validateMessage (nameField 1 .optional) shortStrings fourTexts
      (strBytes "\x7b\"name\":\"a\"\x7d") = .ok () ↔
    BodyConforms fourTexts (fun _ => nameField 1 .optional) (nameField 1 .optional)
      (strBytes "\x7b\"name\":\"a\"\x7d") := by
  refine (validateMessage_conforms shortStrings fourTexts (fun _ => nameField 1 .optional)
    (nameField 1 .optional) (strBytes "\x7b\"name\":\"a\"\x7d") (by decide +kernel)).mpr ?_
  intro text members _ _ _
  left
  intro f member
  obtain rfl := List.mem_singleton.mp member
  exact ⟨rfl, fun m kind => by cases kind⟩

/-- An array for a repeated field is refused, and a message without its fields is not. -/
theorem json_gaps :
    (tagsBody.head? = some 0x7B ∧
      ¬ (validateMessage tagsField shortStrings fourTexts tagsBody = .ok () ↔
        BodyConforms fourTexts (fun _ => nameField 1 .optional) tagsField tagsBody)) ∧
    (ownerBody.head? = some 0x7B ∧
      ¬ (validateMessage ownerField shortStrings fourTexts ownerBody = .ok () ↔
        BodyConforms fourTexts (fun _ => nameField 1 .optional) ownerField ownerBody)) := by
  have tags_object : fromUtf8 tagsBody = some "\x7b\"tags\":[\"a\"]\x7d" := fromUtf8_strBytes _
  have owner_object : fromUtf8 ownerBody = some "\x7b\"owner\":\x7b\x7d\x7d" := fromUtf8_strBytes _
  refine ⟨⟨by decide +kernel, ?_⟩, ⟨by decide +kernel, ?_⟩⟩
  · intro exact_check
    have conform : MembersConform tagsField [("tags", .array [.string "a"])]
        (fun _ => nameField 1 .optional) := by
      intro f member
      obtain rfl := List.mem_singleton.mp member
      exact ⟨_, rfl, by decide⟩
    have refused : validateMessage tagsField shortStrings fourTexts tagsBody ≠ .ok () := by
      decide +kernel
    exact refused (exact_check.mpr ⟨_, _, tags_object, by simp [fourTexts], conform⟩)
  · intro exact_check
    have accepted : validateMessage ownerField shortStrings fourTexts ownerBody = .ok () := by
      decide +kernel
    have parsed : fourTexts.parse "\x7b\"owner\":\x7b\x7d\x7d" =
        .ok (.object [("owner", .object [])]) := by simp [fourTexts]
    have conform := (bodyConforms_object owner_object parsed).mp (exact_check.mp accepted)
    obtain ⟨v, found, fits⟩ := conform _ List.mem_cons_self
    obtain rfl : Json.object [] = v := Option.some_inj.mp found
    exact absurd fits (by decide)

end RocketmqBroker
