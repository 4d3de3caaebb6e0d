import StateAudit.State
import StateAudit.Csv.Table

/-! The closed vocabulary: the legal states, with every primitive and every context among
the rows that were put in. A later state takes the place of an earlier one with its identifier. -/

namespace StateAudit

structure Vocabulary where
  states : Dictionary State := []
  primitives : Labels := []
  contexts : Labels := []

namespace Vocabulary

def addLabel (label : String) (labels : Labels) : Labels :=
  if label.isEmpty then labels else labels.insert label

def insert (vocabulary : Vocabulary) (state : State) : Vocabulary :=
  { states := Dictionary.insert state.stateId state vocabulary.states
    primitives := addLabel state.primitive vocabulary.primitives
    contexts := addLabel state.context vocabulary.contexts }

/-- States without an identifier, such as blank rows, are passed over. -/
def ofStates (states : List State) : Vocabulary :=
  (states.filter (!·.stateId.isEmpty)).foldl insert {}

def ofTable (table : Csv.Table) : Vocabulary := ofStates (table.rows.map (State.ofRow table.header))

def ofCsv (input : Bytes) : Except Csv.BadField Vocabulary :=
  let table := Csv.readTable true input
  match table.broken with
  | some bad => .error bad
  | none => .ok (ofTable table)

def get? (vocabulary : Vocabulary) (stateId : String) : Option State := Dictionary.get? vocabulary.states stateId

def contains (vocabulary : Vocabulary) (stateId : String) : Bool := (vocabulary.get? stateId).isSome

def hasPrimitive (vocabulary : Vocabulary) (primitive : String) : Bool := vocabulary.primitives.contains primitive

def hasContext (vocabulary : Vocabulary) (context : String) : Bool := vocabulary.contexts.contains context

def size (vocabulary : Vocabulary) : Nat := vocabulary.states.length

def isEmpty (vocabulary : Vocabulary) : Bool := vocabulary.states.isEmpty

def primitiveCount (vocabulary : Vocabulary) : Nat := vocabulary.primitives.length

def contextCount (vocabulary : Vocabulary) : Nat := vocabulary.contexts.length

def primitiveExamples (vocabulary : Vocabulary) (limit : Nat) : List String := vocabulary.primitives.take limit

def contextExamples (vocabulary : Vocabulary) (limit : Nat) : List String := vocabulary.contexts.take limit

end Vocabulary

end StateAudit
