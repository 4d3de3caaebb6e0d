import StateAudit.Dictionary

/-! Legal states: an operation in an environment, with an identifier of its own. -/

namespace StateAudit

/-- The identifier that a primitive and a context normally have. -/
def deriveStateId (primitive context : String) : String := "PRIM_" ++ primitive ++ "_CTX_" ++ context

structure State where
  stateId : String
  primitive : String
  context : String
  metadata : Dictionary String := []
deriving DecidableEq

namespace State

def ofPair (primitive context : String) : State :=
  { stateId := deriveStateId primitive context, primitive, context }

/-- The value of the last column with a name, or nothing. -/
def column (name : String) (cells : List (String × String)) : String :=
  (((cells.filter (·.1 == name)).getLast?).map (·.2)).getD ""

def columnNames : List String := ["state_id", "primitive", "context"]

/-- A row under a header. Columns that the row does not reach are missing, fields past the
header are dropped, and further columns become metadata. -/
def ofRow (header row : List String) : State :=
  let cells := header.zip row
  { stateId := column "state_id" cells
    primitive := column "primitive" cells
    context := column "context" cells
    metadata := Dictionary.ofList (cells.filter (!columnNames.contains ·.1)) }

end State

end StateAudit
