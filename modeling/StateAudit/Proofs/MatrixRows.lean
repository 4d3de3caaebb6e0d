import StateAudit.Proofs.MatrixMembership
import StateAudit.Proofs.ReportRun

/-! What validation sees of a matrix: its identifiers, its primitives and its contexts, each of them
as a set. Rows may change places, be repeated, or give way to others with the same identifier. -/

namespace StateAudit

/-- Vocabularies that no record can tell apart. The states they hold for an identifier may differ. -/
structure Vocabulary.Alike (first second : Vocabulary) : Prop where
  contains : ∀ stateId, first.contains stateId = second.contains stateId
  primitives : first.primitives = second.primitives
  contexts : first.contexts = second.contexts

/-- The rows of a table that name a state. -/
def Csv.Table.named (table : Csv.Table) : List (List String) :=
  table.rows.filter fun row => !(State.ofRow table.header row).stateId.isEmpty

theorem Csv.Table.mem_named {table : Csv.Table} {row : List String} :
    row ∈ table.named ↔ row ∈ table.rows ∧ (State.ofRow table.header row).stateId ≠ "" := by
  rw [Csv.Table.named, List.mem_filter, Bool.not_eq_true', String.isEmpty_eq_false_iff]

namespace Vocabulary

/-- Every state with an identifier counts, also one that a later state takes the place of. -/
theorem alike_ofStates {states others : List State}
    (same : ∀ state, state.stateId ≠ "" → (state ∈ states ↔ state ∈ others)) :
    (ofStates states).Alike (ofStates others) := by
  have known (part : State → Prop) :
      (∃ state ∈ states, state.stateId ≠ "" ∧ part state) ↔ ∃ state ∈ others, state.stateId ≠ "" ∧ part state := by
    refine exists_congr fun state => ?_
    rw [and_left_comm, and_left_comm (a := state ∈ others)]
    exact and_congr_right fun named => and_congr_left' (same state named)
  constructor
  case contains =>
    intro stateId
    have named (held : List State) : (stateId ≠ "" ∧ ∃ state ∈ held, state.stateId = stateId) ↔
        ∃ state ∈ held, state.stateId ≠ "" ∧ state.stateId = stateId := by
      constructor
      · rintro ⟨filled, state, member, rfl⟩
        exact ⟨state, member, filled, rfl⟩
      · rintro ⟨state, member, filled, rfl⟩
        exact ⟨filled, state, member, rfl⟩
    rw [Bool.eq_iff_iff, contains_ofStates, contains_ofStates, named, named, known]
  case primitives =>
    refine Labels.eq_of_mem_iff (sorted_primitives states) (sorted_primitives others) fun label => ?_
    rw [← List.contains_iff_mem, ← List.contains_iff_mem, ← hasPrimitive, ← hasPrimitive, hasPrimitive_ofStates,
      hasPrimitive_ofStates, known]
  case contexts =>
    refine Labels.eq_of_mem_iff (sorted_contexts states) (sorted_contexts others) fun label => ?_
    rw [← List.contains_iff_mem, ← List.contains_iff_mem, ← hasContext, ← hasContext, hasContext_ofStates,
      hasContext_ofStates, known]

theorem mem_matrix {input : Bytes} {state : State} (named : state.stateId ≠ "") :
    state ∈ matrix input ↔ ∃ row ∈ (Csv.readTable true input).named,
      State.ofRow (Csv.readTable true input).header row = state := by
  simp only [matrix, List.mem_map, Csv.Table.mem_named]
  constructor
  · rintro ⟨row, member, rfl⟩
    exact ⟨row, ⟨member, named⟩, rfl⟩
  · rintro ⟨row, ⟨member, _⟩, read⟩
    exact ⟨row, member, read⟩

end Vocabulary

/-- The verdict, its suggestions, and the state for the next record are the same. -/
theorem Validator.validate_alike {validator other : Validator} (alike : validator.vocabulary.Alike other.vocabulary)
    (rules : validator.rules = other.rules) (limit : validator.suggestionLimit = other.suggestionLimit)
    (record : Record) (previous : Option String) :
    validator.validate record previous = other.validate record previous := by
  have fatal : validator.fatal? record = other.fatal? record := by
    rw [fatal?, fatal?, Vocabulary.hasPrimitive, Vocabulary.hasContext, Vocabulary.primitiveExamples,
      Vocabulary.contextExamples, alike.primitives, alike.contexts, alike.contains, limit]
    rfl
  have mismatch : validator.mismatch record = other.mismatch record := by
    rw [Validator.mismatch, Vocabulary.hasPrimitive, Vocabulary.hasContext, alike.primitives, alike.contexts]
    rfl
  have transitions (target : String) :
      validator.transitionWarnings previous target = other.transitionWarnings previous target := by
    simp only [transitionWarnings, TransitionRules.fault?, alike.contains, rules]
  rw [validate_eq, validate_eq, fatal, mismatch, transitions]

namespace Stream

/-- Of a matrix that decodes, only the set of the rows that name a state counts for a report. -/
theorem validate_sameRows {matrix other : Bytes} {first second : Vocabulary}
    (loaded : Vocabulary.ofCsv matrix = .ok first) (also : Vocabulary.ofCsv other = .ok second)
    (header : (Csv.readTable true matrix).header = (Csv.readTable true other).header)
    (rows : ∀ row, row ∈ (Csv.readTable true matrix).named ↔ row ∈ (Csv.readTable true other).named)
    (config : Config) (source : String) (chunks : List Chunk) :
    validate (.ofConfig first config) source chunks = validate (.ofConfig second config) source chunks := by
  have alike : first.Alike second := by
    rw [Vocabulary.ofCsv_eq_ok loaded, Vocabulary.ofCsv_eq_ok also]
    refine Vocabulary.alike_ofStates fun state named => ?_
    simp only [Vocabulary.mem_matrix named, rows, header]
  have unseen : (Validator.ofConfig first config).vocabulary.Alike (Validator.ofConfig second config).vocabulary := alike
  refine validate_congr (fun record previous => ?_) source chunks
  exact Validator.validate_alike unseen rfl rfl record previous

def orderedMatrix : Bytes := Utf8.encode "state_id,primitive,context\nhome,read,fs\nhome,write,net\n".toList

/-- The rows of the other matrix, one of them twice, with a row that names no state among them. -/
def shuffledMatrix : Bytes :=
  Utf8.encode "state_id,primitive,context\nhome,write,net\n,ghost,\nhome,write,net\nhome,read,fs\n".toList

/-- The state that is kept for the identifier of two rows is the later one. It does not show. -/
theorem validate_shuffled : ∃ first second,
    Vocabulary.ofCsv orderedMatrix = .ok first ∧ Vocabulary.ofCsv shuffledMatrix = .ok second ∧
    first.get? "home" ≠ second.get? "home" ∧
    ∀ config source chunks,
      validate (.ofConfig first config) source chunks = validate (.ofConfig second config) source chunks := by
  have ordered : Csv.readTable true orderedMatrix =
      ⟨["state_id", "primitive", "context"], [["home", "read", "fs"], ["home", "write", "net"]], none⟩ := by
    decide +kernel
  have shuffled : Csv.readTable true shuffledMatrix =
      ⟨["state_id", "primitive", "context"],
        [["home", "write", "net"], ["", "ghost", ""], ["home", "write", "net"], ["home", "read", "fs"]], none⟩ := by
    decide +kernel
  have first : Vocabulary.ofCsv orderedMatrix = .ok (.ofStates (Vocabulary.matrix orderedMatrix)) :=
    Vocabulary.ofCsv_matrix (by rw [ordered])
  have second : Vocabulary.ofCsv shuffledMatrix = .ok (.ofStates (Vocabulary.matrix shuffledMatrix)) :=
    Vocabulary.ofCsv_matrix (by rw [shuffled])
  refine ⟨_, _, first, second, ?_, ?_⟩
  · simp only [Vocabulary.matrix, ordered, shuffled]
    decide +kernel
  · refine validate_sameRows first second (by rw [ordered, shuffled]) fun row => ?_
    simp only [Csv.Table.mem_named, ordered, shuffled, List.mem_cons, List.not_mem_nil, or_false]
    constructor
    · rintro ⟨rfl | rfl, named⟩
      · simpa using named
      · simpa using named
    · rintro ⟨rfl | rfl | rfl | rfl, named⟩
      · simpa using named
      · exact absurd (by decide +kernel) named
      · simpa using named
      · simpa using named

end Stream

end StateAudit
