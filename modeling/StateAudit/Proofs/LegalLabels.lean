import StateAudit.Proofs.LatestEntries
import StateAudit.Proofs.MatrixMembership

/-! The labels of legal states. A vocabulary gives up a state when a later one has its identifier, but
it keeps the primitive and the context of the state that it gives up. So its labels are those of all
states that were put in. They are those of its legal states exactly where every state that is replaced
has left its labels to others. -/

namespace StateAudit

/-- A state that a vocabulary has for some identifier. -/
def Vocabulary.Legal (vocabulary : Vocabulary) (state : State) : Prop :=
  ∃ stateId, vocabulary.get? stateId = some state

/-- Known are the labels of legal states, and no others. -/
def Vocabulary.Grounds (vocabulary : Vocabulary) (label : State → String) (has : String → Bool) : Prop :=
  ∀ text, has text = true ↔ text ≠ "" ∧ ∃ state, vocabulary.Legal state ∧ label state = text

structure Vocabulary.Grounded (vocabulary : Vocabulary) : Prop where
  primitives : vocabulary.Grounds State.primitive vocabulary.hasPrimitive
  contexts : vocabulary.Grounds State.context vocabulary.hasContext

/-- A state that no later one replaces. -/
def Standing (states : List State) (state : State) : Prop :=
  state.stateId ≠ "" ∧ LastWith (·.stateId = state.stateId) states state

/-- Every state with an identifier shares its label with one that no later one replaces. -/
def Bequeathed (label : State → String) (states : List State) : Prop :=
  ∀ state ∈ states, state.stateId ≠ "" → label state ≠ "" →
    ∃ other, Standing states other ∧ label other = label state

/-- States that have the same label wherever they have the same identifier. -/
def Agreeing (label : State → String) (states : List State) : Prop :=
  ∀ first ∈ states, ∀ second ∈ states, first.stateId = second.stateId → label first = label second

namespace Finding

def suggestedPrimitives : Finding → List String
  | .invalidPrimitive _ examples => examples
  | _ => []

def suggestedContexts : Finding → List String
  | .invalidContext _ examples => examples
  | _ => []

end Finding

/-- What the labels of a vocabulary have to do with the states that were put in. -/
structure Vocabulary.Labelled (states : List State) (vocabulary : Vocabulary) : Prop where
  legal : ∀ state, vocabulary.Legal state ↔ Standing states state
  primitive : ∀ label, vocabulary.hasPrimitive label = true ↔
    label ≠ "" ∧ ∃ state ∈ states, state.stateId ≠ "" ∧ state.primitive = label
  context : ∀ label, vocabulary.hasContext label = true ↔
    label ≠ "" ∧ ∃ state ∈ states, state.stateId ≠ "" ∧ state.context = label
  known : ∀ state, vocabulary.Legal state →
    (state.primitive ≠ "" → vocabulary.hasPrimitive state.primitive = true) ∧
      (state.context ≠ "" → vocabulary.hasContext state.context = true)
  suggested : ∀ (validator : Validator) record previous finding, validator.vocabulary = vocabulary →
    (validator.validate record previous).1.fatal = some finding →
      (∀ label ∈ finding.suggestedPrimitives, vocabulary.hasPrimitive label = true) ∧
        ∀ label ∈ finding.suggestedContexts, vocabulary.hasContext label = true
  grounded : vocabulary.Grounded ↔ Bequeathed State.primitive states ∧ Bequeathed State.context states
  agreeing : Agreeing State.primitive states → Agreeing State.context states → vocabulary.Grounded
  undivided : (∀ state ∈ states, state.Derived) → (∀ state ∈ states, Undivided state.primitive) → vocabulary.Grounded

/-- A suggestion is a label that the vocabulary knows. -/
theorem Validator.known_suggested {validator : Validator} {record : Record} {finding : Finding}
    (fatal : validator.fatal? record = some finding) :
    (∀ label ∈ finding.suggestedPrimitives, validator.vocabulary.hasPrimitive label = true) ∧
      ∀ label ∈ finding.suggestedContexts, validator.vocabulary.hasContext label = true := by
  simp only [fatal?] at fatal
  split at fatal
  next =>
    obtain rfl := Option.some.inj fatal
    refine ⟨fun label member => ?_, List.forall_mem_nil _⟩
    exact List.contains_iff_mem.mpr (List.mem_of_mem_take member)
  next =>
    split at fatal
    next =>
      obtain rfl := Option.some.inj fatal
      refine ⟨List.forall_mem_nil _, fun label member => ?_⟩
      exact List.contains_iff_mem.mpr (List.mem_of_mem_take member)
    next =>
      split at fatal
      next =>
        obtain rfl := Option.some.inj fatal
        exact ⟨List.forall_mem_nil _, List.forall_mem_nil _⟩
      next => cases fatal

section Replaced
variable {states : List State}

/-- Every state with an identifier stands or gives way to one that does. -/
theorem exists_standing {state : State} (member : state ∈ states) (filled : state.stateId ≠ "") :
    ∃ other, Standing states other ∧ other.stateId = state.stateId := by
  obtain ⟨other, last⟩ : ∃ other, LastWith (·.stateId = state.stateId) states other := by
    apply exists_lastWith member
    rfl
  have same : other.stateId = state.stateId := last.holds
  exact ⟨other, ⟨same ▸ filled, same ▸ last⟩, same⟩

/-- Where only states with the same label replace one another, no label is lost. -/
theorem Agreeing.bequeathed {label : State → String} (agreeing : Agreeing label states) : Bequeathed label states := by
  intro state member filled _
  obtain ⟨other, standing, same⟩ := exists_standing member filled
  exact ⟨other, standing, agreeing other standing.2.mem state member same⟩

/-- Identifiers that cannot be divided in two ways tell their primitive and their context. -/
theorem same_pair {first second : State} (derived : first.Derived) (also : second.Derived)
    (whole : Undivided first.primitive) (too : Undivided second.primitive) (same : first.stateId = second.stateId) :
    first.primitive = second.primitive ∧ first.context = second.context := by
  rw [derived.stateId, also.stateId] at same
  exact deriveStateId_injective whole too same

end Replaced

namespace Vocabulary
variable {states : List State}

theorem legal_ofStates {state : State} : (ofStates states).Legal state ↔ Standing states state := by
  constructor
  · rintro ⟨stateId, found⟩
    obtain ⟨filled, last⟩ := get?_ofStates.mp found
    obtain rfl := last.holds
    exact ⟨filled, last⟩
  · intro standing
    exact ⟨state.stateId, get?_ofStates.mpr standing⟩

theorem grounds_iff {label : State → String} {has : String → Bool}
    (known : ∀ text, has text = true ↔ text ≠ "" ∧ ∃ state ∈ states, state.stateId ≠ "" ∧ label state = text) :
    (ofStates states).Grounds label has ↔ Bequeathed label states := by
  constructor
  · intro grounds state member filled labelled
    obtain ⟨_, other, legal, same⟩ := (grounds _).mp ((known _).mpr ⟨labelled, state, member, filled, rfl⟩)
    exact ⟨other, legal_ofStates.mp legal, same⟩
  · intro bequeathed text
    rw [known]
    refine and_congr_right fun labelled => ?_
    constructor
    · rintro ⟨state, member, filled, rfl⟩
      obtain ⟨other, standing, same⟩ := bequeathed state member filled labelled
      exact ⟨other, legal_ofStates.mpr standing, same⟩
    · rintro ⟨state, legal, same⟩
      obtain ⟨filled, last⟩ := legal_ofStates.mp legal
      exact ⟨state, last.mem, filled, same⟩

theorem grounded_iff : (ofStates states).Grounded ↔
    Bequeathed State.primitive states ∧ Bequeathed State.context states := by
  rw [← grounds_iff (hasPrimitive_ofStates states), ← grounds_iff (hasContext_ofStates states)]
  exact ⟨fun grounded => ⟨grounded.primitives, grounded.contexts⟩, fun both => ⟨both.1, both.2⟩⟩

theorem labelled_ofStates (states : List State) : (ofStates states).Labelled states where
  legal _ := legal_ofStates
  primitive := hasPrimitive_ofStates states
  context := hasContext_ofStates states
  known := by
    intro state legal
    obtain ⟨filled, last⟩ := legal_ofStates.mp legal
    exact ⟨fun labelled => (hasPrimitive_ofStates states _).mpr ⟨labelled, state, last.mem, filled, rfl⟩,
      fun labelled => (hasContext_ofStates states _).mpr ⟨labelled, state, last.mem, filled, rfl⟩⟩
  suggested := by
    intro validator record previous finding built fatal
    rw [Validator.fatal_validate] at fatal
    rw [← built]
    exact Validator.known_suggested fatal
  grounded := grounded_iff
  agreeing primitives contexts := grounded_iff.mpr ⟨primitives.bequeathed, contexts.bequeathed⟩
  undivided := by
    intro derived whole
    have pairs : ∀ first ∈ states, ∀ second ∈ states, first.stateId = second.stateId →
        first.primitive = second.primitive ∧ first.context = second.context := fun first member second also same =>
      same_pair (derived first member) (derived second also) (whole first member) (whole second also) same
    have primitives : Agreeing State.primitive states := fun first member second also same =>
      (pairs first member second also same).1
    have contexts : Agreeing State.context states := fun first member second also same =>
      (pairs first member second also same).2
    exact grounded_iff.mpr ⟨primitives.bequeathed, contexts.bequeathed⟩

/-- The states that go into a vocabulary: any list of them, or the rows of a matrix that decodes. -/
inductive Built : List State → Vocabulary → Prop
  | collected (states : List State) : Built states (ofStates states)
  | loaded {input : Bytes} {vocabulary : Vocabulary} : ofCsv input = .ok vocabulary → Built (matrix input) vocabulary

/-- However a vocabulary is built, its labels are those of all states that went in, and those of its
legal states exactly where each state that is replaced leaves its labels to one that is not. -/
theorem labelled_built {vocabulary : Vocabulary} (built : Built states vocabulary) : vocabulary.Labelled states := by
  cases built with
  | collected => exact labelled_ofStates states
  | loaded read =>
    rw [ofCsv_eq_ok read]
    exact labelled_ofStates _

/-- Two pairs that lead to one identifier. The second row replaces the first. -/
def replacedMatrix : Bytes := Utf8.encode
  ("state_id,primitive,context\n" ++ "PRIM_a_CTX_b_CTX_c,a_CTX_b,c\n" ++ "PRIM_a_CTX_b_CTX_c,a,b_CTX_c\n").toList

private theorem table_replaced : Csv.readTable true replacedMatrix =
    ⟨["state_id", "primitive", "context"],
      [["PRIM_a_CTX_b_CTX_c", "a_CTX_b", "c"], ["PRIM_a_CTX_b_CTX_c", "a", "b_CTX_c"]], none⟩ := by
  decide +kernel

private theorem matrix_replaced : matrix replacedMatrix = [.ofPair "a_CTX_b" "c", .ofPair "a" "b_CTX_c"] := by
  rw [matrix, table_replaced]
  decide +kernel

private theorem loaded_replaced : ofCsv replacedMatrix = .ok (ofStates (matrix replacedMatrix)) :=
  ofCsv_matrix (by rw [table_replaced])

/-- The only legal state is the later one, and it has none of the labels of the earlier one. -/
private theorem standing_replaced {state : State} (standing : Standing (matrix replacedMatrix) state) :
    state = .ofPair "a" "b_CTX_c" := by
  rw [matrix_replaced] at standing
  have last : LastWith (·.stateId = state.stateId) ([.ofPair "a_CTX_b" "c"] ++ [.ofPair "a" "b_CTX_c"]) state :=
    standing.2
  rcases lastWith_concat.mp last with ⟨_, same⟩ | ⟨other, last⟩
  · exact same
  · obtain rfl := List.mem_singleton.mp last.mem
    exact absurd (by decide +kernel) other

private theorem stale_replaced : (ofStates (matrix replacedMatrix)).hasPrimitive "a_CTX_b" = true ∧
    ¬ ∃ state, (ofStates (matrix replacedMatrix)).Legal state ∧ state.primitive = "a_CTX_b" := by
  constructor
  · rw [matrix_replaced]
    decide +kernel
  rintro ⟨state, legal, same⟩
  rw [standing_replaced (legal_ofStates.mp legal)] at same
  exact absurd same (by decide)

/-- The primitive of a replaced state is still known, and suggested for one that is not. Nothing is lost
where a state takes the place of one with its labels. -/
theorem labelled_replaced : ∃ vocabulary, ofCsv replacedMatrix = .ok vocabulary ∧
    vocabulary.hasPrimitive "a_CTX_b" = true ∧ (∀ state, vocabulary.Legal state → state.primitive = "a") ∧
    (∃ finding, ((Validator.ofConfig vocabulary {}).validate (.ofPair "b" "c") none).1.fatal = some finding ∧
      "a_CTX_b" ∈ finding.suggestedPrimitives) ∧
    (ofStates [⟨"home", "read", "fs", []⟩, ⟨"home", "read", "fs", [("layer", "io")]⟩]).Grounded := by
  have built : Built (matrix replacedMatrix) (ofStates (matrix replacedMatrix)) := .loaded loaded_replaced
  have labelled := labelled_built built
  refine ⟨_, loaded_replaced, ?_, ?_, ?_, ?_⟩
  · refine (labelled.primitive _).mpr ⟨by decide, .ofPair "a_CTX_b" "c", ?_, by decide, rfl⟩
    rw [matrix_replaced]
    exact List.mem_cons_self
  · intro state legal
    rw [standing_replaced ((labelled.legal state).mp legal)]
    rfl
  · refine ⟨.invalidPrimitive "b" ["a", "a_CTX_b"], ?_, by decide⟩
    rw [matrix_replaced]
    decide +kernel
  · refine (labelled_built (.collected _)).agreeing ?_ ?_
    · unfold Agreeing
      decide +kernel
    · unfold Agreeing
      decide +kernel

/-- A label may outlive the only legal state that had it. -/
theorem lost_label : (¬ ∀ input vocabulary, ofCsv input = .ok vocabulary → vocabulary.Grounded) ∧
    ¬ ∀ states, (ofStates states).Grounded := by
  obtain ⟨known, illegal⟩ := stale_replaced
  constructor
  · intro grounded
    exact illegal (((grounded _ _ loaded_replaced).primitives _).mp known).2
  · intro grounded
    exact illegal (((grounded (matrix replacedMatrix)).primitives _).mp known).2

end Vocabulary

end StateAudit
