import RocketmqBroker.Schema.WireFormat

/-!
Two schemas against each other (schema/validate.rs): a consumer's against its queue's, and a
declared one against what the queue has. Both checks go by the names of the fields. The first
compares kinds only, the second kinds and numbers.
-/
/-- Two lists whose members go together, each with some member of the other. -/
structure Paired {α : Type} (R : α → α → Prop) (xs ys : List α) : Prop where
  left : ∀ x ∈ xs, ∃ y ∈ ys, R x y
  right : ∀ y ∈ ys, ∃ x ∈ xs, R x y

theorem paired_equivalence {α : Type} {R : α → α → Prop} (equiv : Equivalence R) :
    Equivalence (Paired R) where
  refl xs := ⟨fun x member => ⟨x, member, equiv.refl x⟩, fun x member => ⟨x, member, equiv.refl x⟩⟩
  symm := by
    rintro xs ys ⟨left, right⟩
    constructor
    · intro y member
      obtain ⟨x, there, related⟩ := right y member
      exact ⟨x, there, equiv.symm related⟩
    · intro x member
      obtain ⟨y, there, related⟩ := left x member
      exact ⟨y, there, equiv.symm related⟩
  trans := by
    rintro xs ys zs ⟨left, right⟩ ⟨left', right'⟩
    constructor
    · intro x member
      obtain ⟨y, there, related⟩ := left x member
      obtain ⟨z, there', related'⟩ := left' y there
      exact ⟨z, there', equiv.trans related related'⟩
    · intro z member
      obtain ⟨y, there, related⟩ := right' z member
      obtain ⟨x, there', related'⟩ := right y there
      exact ⟨x, there', equiv.trans related' related⟩

section
variable {α : Type} {R S : α → α → Prop} {xs ys : List α}

theorem Paired.mono (weaker : ∀ x y, R x y → S x y) (paired : Paired R xs ys) :
    Paired S xs ys where
  left x member := by
    obtain ⟨y, there, related⟩ := paired.left x member
    exact ⟨y, there, weaker x y related⟩
  right y member := by
    obtain ⟨x, there, related⟩ := paired.right y member
    exact ⟨x, there, weaker x y related⟩

theorem not_paired : ¬ Paired R xs ys ↔
    (∃ x ∈ xs, ∀ y ∈ ys, ¬ R x y) ∨ ∃ y ∈ ys, ∀ x ∈ xs, ¬ R x y := by
  constructor
  · intro apart
    by_cases left : ∀ x ∈ xs, ∃ y ∈ ys, R x y
    · right
      have right : ¬ ∀ y ∈ ys, ∃ x ∈ xs, R x y := fun right => apart ⟨left, right⟩
      simpa using right
    · left
      simpa using left
  · rintro (⟨x, member, alone⟩ | ⟨y, member, alone⟩) paired
    · obtain ⟨y, there, related⟩ := paired.left x member
      exact alone y there related
    · obtain ⟨x, there, related⟩ := paired.right y member
      exact alone x there related

end

namespace RocketmqBroker
variable {ε μ : Type}

section
variable {ρ ν : Type} (w : WireFormat ε μ ρ ν) (queue consumer : MessageDescriptor ε μ)

/-- What a consumer relies on once its schema has been let through. -/
structure ReadableBy : Prop where
  fields : ∀ f ∈ consumer.fields, ∃ g ∈ queue.fields, g.name = f.name ∧ g.number = f.number ∧
    g.kind = f.kind ∧ g.cardinality = f.cardinality
  payloads : ∀ body, w.validateProtobufFields queue body = .ok () →
    ∃ msg msg', w.decode queue body = some msg ∧ w.decode consumer body = some msg' ∧
      ∀ f ∈ consumer.fields, ∃ v, msg.value? f.name = some v ∧ msg'.value? f.name = some v

variable {queue consumer}

theorem readableBy_of_fields (fields : ∀ f ∈ consumer.fields, ∃ g ∈ queue.fields,
    g.name = f.name ∧ g.number = f.number ∧ g.kind = f.kind ∧ g.cardinality = f.cardinality) :
    ReadableBy w queue consumer where
  fields := fields
  payloads := by
    have subset : consumer.fields ⊆ queue.fields := by
      intro f member
      obtain ⟨g, listed, name, number, kind, cardinality⟩ := fields f member
      have same : g = f := by
        cases g
        cases f
        simp_all
      exact same ▸ listed
    intro body accepted
    obtain ⟨msg, decoded, -⟩ := w.validateProtobufFields_ok accepted
    obtain ⟨msg', decoded', values⟩ := w.decode_subset subset decoded
    exact ⟨msg, msg', decoded, decoded', values⟩

end

section
variable (queue consumer : MessageDescriptor ε μ)

def extraFields : List String :=
  consumer.fields.filterMap fun f =>
    match (byName queue.fields).get? f.name with
    | none => some f.name
    | some _ => none

theorem extraFields_eq_nil : extraFields queue consumer = [] ↔
    ∀ f ∈ consumer.fields, ∃ g, (byName queue.fields).get? f.name = some g := by
  unfold extraFields
  rw [List.filterMap_eq_nil_iff]
  refine forall₂_congr fun f _ => ?_
  cases (byName queue.fields).get? f.name with
  | none => simp
  | some g => simp

variable [DecidableEq ε] [DecidableEq μ]

def typeMismatches : List (FieldTypeMismatch ε μ) :=
  consumer.fields.filterMap fun f =>
    match (byName queue.fields).get? f.name with
    | none => none
    | some g => if g.kind ≠ f.kind then some ⟨f.name, g.kind, f.kind⟩ else none

/-- The loop of the source puts a field on one of the two lists or on none. -/
def checkConsumerSubset : Except (SchemaValidationError ε μ) Unit :=
  if extraFields queue consumer ≠ [] then
    .error (.consumerExtraFields (extraFields queue consumer))
  else if typeMismatches queue consumer ≠ [] then
    .error (.typeMismatch (typeMismatches queue consumer))
  else .ok ()

theorem typeMismatches_eq_nil : typeMismatches queue consumer = [] ↔
    ∀ f ∈ consumer.fields, ∀ g, (byName queue.fields).get? f.name = some g → g.kind = f.kind := by
  unfold typeMismatches
  rw [List.filterMap_eq_nil_iff]
  refine forall₂_congr fun f _ => ?_
  cases (byName queue.fields).get? f.name with
  | none => simp
  | some g => simp

theorem checkConsumerSubset_ok_iff : checkConsumerSubset queue consumer = .ok () ↔
    ∀ f ∈ consumer.fields, ∃ g ∈ queue.fields, g.name = f.name ∧ g.kind = f.kind := by
  have passes : checkConsumerSubset queue consumer = .ok () ↔
      extraFields queue consumer = [] ∧ typeMismatches queue consumer = [] := by
    unfold checkConsumerSubset
    rw [Fallible.refuse_eq_ok, Fallible.refuse_eq_ok, and_iff_left rfl]
  rw [passes, extraFields_eq_nil, typeMismatches_eq_nil, each_found_iff]
  simp only [queue.get?_byName, and_assoc]

end

section
variable [DecidableEq ε] [DecidableEq μ]

/-- A schema that is let through is safe to read with exactly when numbers and cardinalities,
    which nothing compares, agree by themselves. -/
theorem checkConsumerSubset_readable {ρ ν : Type} (w : WireFormat ε μ ρ ν)
    (queue consumer : MessageDescriptor ε μ) :
    (checkConsumerSubset queue consumer = .ok () → ReadableBy w queue consumer) ↔
      (∀ f ∈ consumer.fields, ∀ g ∈ queue.fields, g.name = f.name → g.kind = f.kind →
        g.number = f.number ∧ g.cardinality = f.cardinality) ∨
      ∃ f ∈ consumer.fields, ∀ g ∈ queue.fields, g.name = f.name → g.kind ≠ f.kind := by
  rw [checkConsumerSubset_ok_iff]
  constructor
  · intro safe
    by_cases accepted : ∀ f ∈ consumer.fields, ∃ g ∈ queue.fields, g.name = f.name ∧ g.kind = f.kind
    · left
      intro f member g listed name kind
      obtain ⟨g', listed', name', number, -, cardinality⟩ := (safe accepted).fields f member
      rw [queue.name_inj listed listed' (name.trans name'.symm)]
      exact ⟨number, cardinality⟩
    · right
      push Not at accepted
      exact accepted
  · rintro (agree | ⟨f, member, missing⟩) accepted
    · refine readableBy_of_fields w fun f member => ?_
      obtain ⟨g, listed, name, kind⟩ := accepted f member
      obtain ⟨number, cardinality⟩ := agree f member g listed name kind
      exact ⟨g, listed, name, number, kind, cardinality⟩
    · obtain ⟨g, listed, name, kind⟩ := accepted f member
      exact absurd kind (missing g listed name)

end

/-- The consumer looks for the name under another number, and finds none in a payload that has
    one. -/
theorem renumbered_consumer_accepted :
    checkConsumerSubset (nameField 1 .optional) (nameField 2 .optional) = .ok () ∧
    shortStrings.validateProtobufFields (nameField 1 .optional) [0x0A, 1, 0x61] = .ok () ∧
    (shortStrings.decode (nameField 1 .optional) [0x0A, 1, 0x61]).map (·.value? "name") =
      some (some [[0x61]]) ∧
    (shortStrings.decode (nameField 2 .optional) [0x0A, 1, 0x61]).map (·.value? "name") =
      some (some []) ∧
    ¬ (checkConsumerSubset (nameField 1 .optional) (nameField 2 .optional) = .ok () →
      ReadableBy shortStrings (nameField 1 .optional) (nameField 2 .optional)) := by
  have accepted :
      checkConsumerSubset (nameField 1 .optional) (nameField 2 .optional) = .ok () := by
    decide +kernel
  refine ⟨accepted, by decide +kernel, by decide +kernel, by decide +kernel, ?_⟩
  intro safe
  obtain ⟨g, listed, -, number, -⟩ := (safe accepted).fields _ List.mem_cons_self
  rw [List.mem_singleton.mp listed] at number
  exact absurd number (by decide)

/-! A declaration against the schema that the queue has. -/

section
variable [DecidableEq ε] [DecidableEq μ] (debug : Kind ε μ → String)
  (existing incoming : MessageDescriptor ε μ)

def newFields : List String :=
  incoming.fields.flatMap fun f =>
    if (byName existing.fields).contains f.name then []
    else ["new field '" ++ f.name ++ "' not in existing schema"]

def removedFields : List String :=
  existing.fields.flatMap fun f =>
    if (byName incoming.fields).contains f.name then []
    else ["existing field '" ++ f.name ++ "' not in incoming schema"]

/-- `debug` is the text that a kind has in logs. -/
def changedFields : List String :=
  incoming.fields.flatMap fun f =>
    match (byName existing.fields).get? f.name with
    | none => []
    | some g =>
      (if g.number ≠ f.number then
        ["field '" ++ f.name ++ "': number " ++ toString g.number ++ " vs " ++ toString f.number]
      else []) ++
      (if g.kind ≠ f.kind then
        ["field '" ++ f.name ++ "': type " ++ debug g.kind ++ " vs " ++ debug f.kind]
      else [])

def checkSchemaConflict : Except (SchemaValidationError ε μ) Unit :=
  let differences := newFields existing incoming ++ removedFields existing incoming ++
    changedFields debug existing incoming
  if differences ≠ [] then .error (.schemaConflict differences) else .ok ()

end

section
variable {d : MessageDescriptor ε μ} {fs : List (FieldDescriptor ε μ)}

theorem missing_eq_nil {text : FieldDescriptor ε μ → List String} (named : ∀ f, text f ≠ []) :
    (fs.flatMap fun f => if (byName d.fields).contains f.name then [] else text f) = [] ↔
      ∀ f ∈ fs, ∃ g ∈ d.fields, g.name = f.name := by
  rw [List.flatMap_eq_nil_iff]
  refine forall₂_congr fun f _ => ?_
  have listed : (byName d.fields).contains f.name = true ↔ ∃ g ∈ d.fields, g.name = f.name := by
    rw [FinMap.contains, Option.isSome_iff_exists]
    simp only [d.get?_byName]
  rw [← listed]
  split
  · rename_i here
    exact iff_of_true rfl here
  · rename_i absent
    exact iff_of_false (named f) absent

variable [DecidableEq ε] [DecidableEq μ] {debug : Kind ε μ → String}
  {existing incoming : MessageDescriptor ε μ}

theorem changedFields_eq_nil : changedFields debug existing incoming = [] ↔
    ∀ f ∈ incoming.fields, ∀ g ∈ existing.fields, g.name = f.name →
      g.number = f.number ∧ g.kind = f.kind := by
  unfold changedFields
  rw [List.flatMap_eq_nil_iff]
  refine forall₂_congr fun f _ => ?_
  constructor
  · intro nothing g listed same
    rw [(existing.get?_byName f.name g).mpr ⟨listed, same⟩, List.append_eq_nil_iff] at nothing
    simpa using nothing
  · intro agree
    cases found : (byName existing.fields).get? f.name with
    | none => rfl
    | some g =>
      obtain ⟨listed, same⟩ := (existing.get?_byName f.name g).mp found
      obtain ⟨number, kind⟩ := agree g listed same
      simp [number, kind]

end

namespace FieldDescriptor

def Agree (f g : FieldDescriptor ε μ) : Prop :=
  f.name = g.name ∧ f.number = g.number ∧ f.kind = g.kind

def Alike (f g : FieldDescriptor ε μ) : Prop :=
  f.name = g.name ∧ f.number = g.number ∧ f.kind = g.kind ∧ f.isRepeated = g.isRepeated

theorem agree_equivalence : Equivalence (Agree (ε := ε) (μ := μ)) where
  refl _ := ⟨rfl, rfl, rfl⟩
  symm h := ⟨h.1.symm, h.2.1.symm, h.2.2.symm⟩
  trans h h' := ⟨h.1.trans h'.1, h.2.1.trans h'.2.1, h.2.2.trans h'.2.2⟩

theorem alike_iff {f g : FieldDescriptor ε μ} :
    f.Alike g ↔ f.Agree g ∧ f.isRepeated = g.isRepeated := by
  simp only [Alike, Agree, and_assoc]

end FieldDescriptor

section
variable [DecidableEq ε] [DecidableEq μ] {debug : Kind ε μ → String}
  {existing incoming : MessageDescriptor ε μ}

theorem checkSchemaConflict_ok_iff : checkSchemaConflict debug existing incoming = .ok () ↔
    Paired FieldDescriptor.Agree existing.fields incoming.fields := by
  have passes : checkSchemaConflict debug existing incoming = .ok () ↔
      (newFields existing incoming = [] ∧ removedFields existing incoming = []) ∧
        changedFields debug existing incoming = [] := by
    unfold checkSchemaConflict
    dsimp only
    rw [Fallible.refuse_eq_ok, and_iff_left rfl, List.append_eq_nil_iff, List.append_eq_nil_iff]
  rw [passes, changedFields_eq_nil]
  unfold newFields removedFields
  rw [missing_eq_nil fun f => List.cons_ne_nil _ _, missing_eq_nil fun f => List.cons_ne_nil _ _]
  constructor
  · rintro ⟨⟨known, kept⟩, unchanged⟩
    constructor
    · intro f member
      obtain ⟨g, there, name⟩ := kept f member
      exact ⟨g, there, name.symm, unchanged g there f member name.symm⟩
    · intro g member
      obtain ⟨f, there, name⟩ := known g member
      exact ⟨f, there, name, unchanged g member f there name⟩
  · rintro ⟨left, right⟩
    refine ⟨⟨?_, ?_⟩, ?_⟩
    · intro g member
      obtain ⟨f, there, name, -⟩ := right g member
      exact ⟨f, there, name⟩
    · intro f member
      obtain ⟨g, there, name, -⟩ := left f member
      exact ⟨g, there, name.symm⟩
    · intro g member f there name
      obtain ⟨f', there', name', same⟩ := right g member
      rw [existing.name_inj there there' (name.trans name'.symm)]
      exact same

/-- A redeclaration passes for an identical schema and for no other, exactly when no field
    differs in being repeated alone. -/
theorem checkSchemaConflict_identical (debug : Kind ε μ → String) :
    Equivalence (fun existing incoming : MessageDescriptor ε μ =>
      checkSchemaConflict debug existing incoming = .ok ()) ∧
    ∀ existing incoming : MessageDescriptor ε μ,
      ((checkSchemaConflict debug existing incoming = .ok () ↔
        Paired FieldDescriptor.Alike existing.fields incoming.fields) ↔
      (∀ f ∈ existing.fields, ∀ g ∈ incoming.fields, f.Agree g → f.isRepeated = g.isRepeated) ∨
      (∃ f ∈ existing.fields, ∀ g ∈ incoming.fields, ¬ f.Agree g) ∨
      ∃ g ∈ incoming.fields, ∀ f ∈ existing.fields, ¬ f.Agree g) := by
  simp only [checkSchemaConflict_ok_iff]
  constructor
  · have equiv : Equivalence (Paired (FieldDescriptor.Agree (ε := ε) (μ := μ))) :=
      paired_equivalence FieldDescriptor.agree_equivalence
    exact ⟨fun _ => equiv.refl _, equiv.symm, equiv.trans⟩
  · intro existing incoming
    have agrees (alike : Paired FieldDescriptor.Alike existing.fields incoming.fields) :
        Paired FieldDescriptor.Agree existing.fields incoming.fields :=
      alike.mono fun f g same => (FieldDescriptor.alike_iff.mp same).1
    constructor
    · intro exact_check
      by_cases accepted : Paired FieldDescriptor.Agree existing.fields incoming.fields
      · left
        intro f member g there same
        obtain ⟨g', there', same'⟩ := (exact_check.mp accepted).left f member
        rw [incoming.name_inj there there' (same.1.symm.trans same'.1)]
        exact (FieldDescriptor.alike_iff.mp same').2
      · right
        exact not_paired.mp accepted
    · rintro (agree | differ)
      · refine ⟨fun accepted => ?_, agrees⟩
        constructor
        · intro f member
          obtain ⟨g, there, same⟩ := accepted.left f member
          exact ⟨g, there, FieldDescriptor.alike_iff.mpr ⟨same, agree f member g there same⟩⟩
        · intro g member
          obtain ⟨f, there, same⟩ := accepted.right g member
          exact ⟨f, there, FieldDescriptor.alike_iff.mpr ⟨same, agree f there g member same⟩⟩
      · have refused := not_paired.mpr differ
        exact ⟨fun accepted => absurd accepted refused, fun alike => absurd (agrees alike) refused⟩

end

/-- A name that becomes a list of names is let through. -/
theorem repeated_redeclaration_accepted :
    checkSchemaConflict (fun _ => "") (nameField 1 .optional) (nameField 1 .repeated) = .ok () ∧
    ¬ (checkSchemaConflict (fun _ => "") (nameField 1 .optional) (nameField 1 .repeated) = .ok () ↔
      Paired FieldDescriptor.Alike (nameField 1 .optional).fields
        (nameField 1 .repeated).fields) := by
  have accepted : checkSchemaConflict (fun _ => "") (nameField 1 .optional)
      (nameField 1 .repeated) = .ok () := by decide +kernel
  refine ⟨accepted, fun exact_check => ?_⟩
  obtain ⟨g, there, -, -, -, repeated⟩ := (exact_check.mp accepted).left _ List.mem_cons_self
  rw [List.mem_singleton.mp there] at repeated
  exact absurd repeated (by decide)

end RocketmqBroker
