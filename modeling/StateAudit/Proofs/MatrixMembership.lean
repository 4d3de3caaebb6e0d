import StateAudit.Proofs.RecordVerdict
import StateAudit.Proofs.VocabularyContents

/-! Which records a loaded matrix makes valid. Primitive, context and identifier are looked up
one by one, and the identifier does not say where the primitive ends: a record may borrow each
of the three from another row. -/

namespace StateAudit

/-- A row that names a primitive and a context, under the identifier that they lead to. -/
structure State.Derived (state : State) : Prop where
  primitive : state.primitive ≠ ""
  context : state.context ≠ ""
  stateId : state.stateId = deriveStateId state.primitive state.context

theorem State.derived_ofPair {primitive context : String} (operation : primitive ≠ "") (environment : context ≠ "") :
    (State.ofPair primitive context).Derived := ⟨operation, environment, rfl⟩

def Listed (states : List State) (record : Record) : Prop :=
  ∃ state ∈ states, record.primitive = some state.primitive ∧ record.context = some state.context

/-- A record with the primitive of one row, the context of another and the identifier of a third. -/
def Assembled (states : List State) (record : Record) : Prop :=
  ∃ first ∈ states, ∃ second ∈ states, ∃ third ∈ states,
    record.primitive = some first.primitive ∧ record.context = some second.context ∧
      deriveStateId first.primitive second.context = third.stateId

/-- No two rows lead to the identifier of a third, unless their pair is a row as well. -/
def Separate (states : List State) : Prop :=
  ∀ first ∈ states, ∀ second ∈ states, ∀ third ∈ states,
    deriveStateId first.primitive second.context = third.stateId →
      ∃ state ∈ states, state.primitive = first.primitive ∧ state.context = second.context

/-- A primitive in whose identifiers the delimiter does not occur before its end. -/
def Undivided (primitive : String) : Prop := ¬ "_CTX_".toList <:+: (primitive ++ "_CTX").toList

theorem toList_deriveStateId (primitive context : String) : (deriveStateId primitive context).toList =
    "PRIM_".toList ++ (primitive.toList ++ ("_CTX_".toList ++ context.toList)) := by
  simp only [deriveStateId, String.toList_append, List.append_assoc]

private theorem delimiter_inside {label shorter between context other : List Char}
    (same : shorter ++ ("_CTX_".toList ++ other) = label ++ ("_CTX_".toList ++ context))
    (longer : label = shorter ++ between) (filled : between ≠ []) :
    "_CTX_".toList <:+: label ++ "_CTX".toList := by
  rw [longer, List.append_assoc, List.append_cancel_left_eq] at same
  have delimiter : "_CTX_".toList <+: between ++ ("_CTX_".toList ++ context) := ⟨other, same⟩
  have reached : between ++ "_CTX".toList <+: between ++ ("_CTX_".toList ++ context) := ⟨'_' :: context, by simp⟩
  have short : "_CTX_".toList.length ≤ (between ++ "_CTX".toList).length := by
    have positive : 0 < between.length := List.length_pos_iff.mpr filled
    rw [List.length_append, show "_CTX_".toList.length = 5 from rfl, show "_CTX".toList.length = 4 from rfl]
    omega
  obtain ⟨rest, found⟩ := List.prefix_of_prefix_length_le delimiter reached short
  exact ⟨shorter, rest, by rw [longer, List.append_assoc, List.append_assoc, found]⟩

theorem deriveStateId_injective {first second context other : String} (whole : Undivided first)
    (too : Undivided second) (same : deriveStateId first context = deriveStateId second other) :
    first = second ∧ context = other := by
  rw [Undivided, String.toList_append] at whole too
  have texts := congrArg String.toList same
  rw [toList_deriveStateId, toList_deriveStateId, List.append_cancel_left_eq] at texts
  have primitives : first.toList = second.toList := by
    -- If one primitive is longer, the delimiter behind the other one begins inside it.
    rcases List.append_eq_append_iff.mp texts with ⟨between, longer, _⟩ | ⟨between, longer, _⟩
    · have none : between = [] := Decidable.not_not.mp fun filled => too (delimiter_inside texts longer filled)
      rw [longer, none, List.append_nil]
    · have none : between = [] := Decidable.not_not.mp fun filled => whole (delimiter_inside texts.symm longer filled)
      rw [longer, none, List.append_nil]
  rw [primitives, List.append_cancel_left_eq, List.append_cancel_left_eq] at texts
  exact ⟨String.toList_inj.mp primitives, String.toList_inj.mp texts⟩

theorem Separate.of_undivided {states : List State} (derived : ∀ state ∈ states, state.Derived)
    (undivided : ∀ state ∈ states, Undivided state.primitive) : Separate states := by
  intro first member second _ third listed same
  rw [(derived third listed).stateId] at same
  obtain ⟨primitive, context⟩ := deriveStateId_injective (undivided first member) (undivided third listed) same
  exact ⟨third, listed, primitive.symm, context.symm⟩

theorem Listed.assembled {states : List State} {record : Record} (derived : ∀ state ∈ states, state.Derived)
    (listed : Listed states record) : Assembled states record := by
  obtain ⟨state, member, primitive, context⟩ := listed
  exact ⟨state, member, state, member, state, member, primitive, context, (derived state member).stateId.symm⟩

def Record.ofPair (primitive context : String) : Record where
  primitive := some primitive
  context := some context
  stateId := none
  status := .unknown
  message := none
  performance := {}
  members := [("context", .string context), ("primitive", .string primitive)]

theorem separate_iff {states : List State} (derived : ∀ state ∈ states, state.Derived) :
    (∀ record, Assembled states record ↔ Listed states record) ↔ Separate states := by
  constructor
  · intro exact first member second also third listed same
    obtain ⟨state, found, primitive, context⟩ := (exact (.ofPair first.primitive second.context)).mp
      ⟨first, member, second, also, third, listed, rfl, rfl, same⟩
    exact ⟨state, found, (Option.some.inj primitive).symm, (Option.some.inj context).symm⟩
  · intro separate record
    refine ⟨?_, Listed.assembled derived⟩
    rintro ⟨first, member, second, also, third, listed, primitive, context, same⟩
    obtain ⟨state, found, left, right⟩ := separate first member second also third listed same
    exact ⟨state, found, left ▸ primitive, right ▸ context⟩

namespace Vocabulary

def matrix (input : Bytes) : List State :=
  let table := Csv.readTable true input
  table.rows.map (State.ofRow table.header)

theorem ofCsv_eq_ok {input : Bytes} {vocabulary : Vocabulary} (loaded : ofCsv input = .ok vocabulary) :
    vocabulary = ofStates (matrix input) := by
  simp only [ofCsv] at loaded
  split at loaded
  · cases loaded
  · exact (Except.ok.inj loaded).symm

theorem ofCsv_matrix {input : Bytes} (whole : (Csv.readTable true input).broken = none) :
    ofCsv input = .ok (ofStates (matrix input)) := by
  simp only [ofCsv, whole]
  rfl

end Vocabulary

namespace Validator

private theorem label_eq_some {states : List State} {label : State → String} {held : Option String}
    (named : ∀ state ∈ states, state.stateId ≠ "" ∧ label state ≠ "") :
    (held.getD "" ≠ "" ∧ ∃ state ∈ states, state.stateId ≠ "" ∧ label state = held.getD "") ↔
      ∃ state ∈ states, held = some (label state) := by
  constructor
  · rintro ⟨filled, state, member, _, same⟩
    cases held with
    | none => exact absurd rfl filled
    | some text => exact ⟨state, member, congrArg some same.symm⟩
  · rintro ⟨state, member, rfl⟩
    exact ⟨(named state member).2, state, member, (named state member).1, rfl⟩

theorem accepts_ofStates {states : List State} {validator : Validator}
    (built : validator.vocabulary = .ofStates states) (derived : ∀ state ∈ states, state.Derived) (record : Record) :
    validator.accepts record = true ↔ Assembled states record := by
  have named : ∀ state ∈ states, state.stateId ≠ "" := by
    intro state member
    rw [(derived state member).stateId, ← String.isEmpty_eq_false_iff]
    exact isEmpty_deriveStateId _ _
  rw [accepts_iff, built, Vocabulary.hasPrimitive_ofStates, Vocabulary.hasContext_ofStates,
    Vocabulary.contains_ofStates,
    label_eq_some fun state member => ⟨named state member, (derived state member).primitive⟩,
    label_eq_some fun state member => ⟨named state member, (derived state member).context⟩]
  constructor
  · rintro ⟨⟨first, member, primitive⟩, ⟨second, also, context⟩, _, third, listed, same⟩
    rw [Record.derivedId, primitive, context] at same
    exact ⟨first, member, second, also, third, listed, primitive, context, same.symm⟩
  · rintro ⟨first, member, second, also, third, listed, primitive, context, same⟩
    have reached : record.derivedId = third.stateId := by
      rw [Record.derivedId, primitive, context]
      exact same
    exact ⟨⟨first, member, primitive⟩, ⟨second, also, context⟩, reached ▸ named third listed,
      third, listed, reached.symm⟩

/-- A record of a loaded matrix is valid when rows assemble it. That is exactly when one row lists
it, for every record, where no two rows lead to the identifier of a third. -/
theorem validate_matrix {input : Bytes} {validator : Validator}
    (loaded : Vocabulary.ofCsv input = .ok validator.vocabulary)
    (derived : ∀ state ∈ Vocabulary.matrix input, state.Derived) :
    (∀ record previous, (validator.validate record previous).1.isValid = true ↔
      Assembled (Vocabulary.matrix input) record) ∧
    (∀ record previous, Listed (Vocabulary.matrix input) record →
      (validator.validate record previous).1.isValid = true) ∧
    ((∀ record previous, (validator.validate record previous).1.isValid = true ↔
      Listed (Vocabulary.matrix input) record) ↔ Separate (Vocabulary.matrix input)) ∧
    ((∀ state ∈ Vocabulary.matrix input, Undivided state.primitive) → Separate (Vocabulary.matrix input)) := by
  have assembled : ∀ record (previous : Option String), (validator.validate record previous).1.isValid = true ↔
      Assembled (Vocabulary.matrix input) record := by
    intro record previous
    rw [isValid_validate]
    exact accepts_ofStates (Vocabulary.ofCsv_eq_ok loaded) derived record
  refine ⟨assembled, ?_, ?_, Separate.of_undivided derived⟩
  · intro record previous listed
    exact (assembled record previous).mpr (listed.assembled derived)
  · rw [← separate_iff derived]
    constructor
    · intro exact record
      rw [← assembled record none]
      exact exact record none
    · intro exact record previous
      rw [assembled record previous]
      exact exact record

def crossedMatrix : Bytes := Utf8.encode
  ("state_id,primitive,context\n" ++ "PRIM_a_CTX_b_CTX_c,a_CTX_b,c\n" ++ "PRIM_a_CTX_x,a,x\n" ++
    "PRIM_y_CTX_b_CTX_c,y,b_CTX_c\n").toList

def crossed : Validator where
  vocabulary := .ofStates (Vocabulary.matrix crossedMatrix)

private theorem matrix_crossed : Vocabulary.matrix crossedMatrix =
    [.ofPair "a_CTX_b" "c", .ofPair "a" "x", .ofPair "y" "b_CTX_c"] := by
  decide +kernel

private theorem loaded_crossed : Vocabulary.ofCsv crossedMatrix = .ok crossed.vocabulary := by
  have whole : (Csv.readTable true crossedMatrix).broken = none := by decide +kernel
  have same : crossed.vocabulary = .ofStates (Vocabulary.matrix crossedMatrix) := by rw [crossed]
  rw [same]
  exact Vocabulary.ofCsv_matrix whole

private theorem derived_crossed : ∀ state ∈ Vocabulary.matrix crossedMatrix, state.Derived := by
  rw [matrix_crossed]
  simp [State.derived_ofPair]

private theorem assembled_crossed : Assembled (Vocabulary.matrix crossedMatrix) (.ofPair "a" "b_CTX_c") := by
  rw [matrix_crossed]
  -- The primitive of the second row and the context of the third lead to the first one.
  refine ⟨.ofPair "a" "x", by simp, .ofPair "y" "b_CTX_c", by simp, .ofPair "a_CTX_b" "c", by simp, rfl, rfl, ?_⟩
  decide +kernel

private theorem unlisted_crossed : ¬ Listed (Vocabulary.matrix crossedMatrix) (.ofPair "a" "b_CTX_c") := by
  rw [matrix_crossed]
  simp [Listed, State.ofPair, Record.ofPair]

theorem validate_crossed :
    (crossed.validate (.ofPair "a" "b_CTX_c") none).1.isValid = true ∧
      ¬ Separate (Vocabulary.matrix crossedMatrix) := by
  obtain ⟨assembled, _, exact, _⟩ := validate_matrix loaded_crossed derived_crossed
  have valid := (assembled (.ofPair "a" "b_CTX_c") none).mpr assembled_crossed
  refine ⟨valid, ?_⟩
  intro separate
  exact unlisted_crossed ((exact.mpr separate _ none).mp valid)

theorem unlisted_valid : ¬ ∀ (input : Bytes) (validator : Validator),
    Vocabulary.ofCsv input = .ok validator.vocabulary → (∀ state ∈ Vocabulary.matrix input, state.Derived) →
      ∀ record previous, (validator.validate record previous).1.isValid = true ↔
        Listed (Vocabulary.matrix input) record := by
  intro exact
  apply unlisted_crossed
  rw [← exact crossedMatrix crossed loaded_crossed derived_crossed _ none, isValid_validate,
    accepts_ofStates (Vocabulary.ofCsv_eq_ok loaded_crossed) derived_crossed]
  exact assembled_crossed

end Validator

end StateAudit
