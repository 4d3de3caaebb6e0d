import StateAudit.Record
import StateAudit.Transition

/-! Findings: what can be wrong with one line of an audit log. -/

namespace StateAudit

inductive Severity where
  | warning
  | failure
deriving DecidableEq

def Severity.text : Severity → String
  | .warning => "warning"
  | .failure => "failure"

inductive Finding where
  | invalidPrimitive (primitive : String) (examples : List String)
  | invalidContext (context : String) (examples : List String)
  | invalidState (stateId : String)
  | stateIdMismatch (logged expected : String)
  | invalidTransition (source target : String) (cause : TransitionFault)
  | malformed (error : RecordError)
deriving DecidableEq

namespace Finding

/-- A mismatch or a questionable transition leaves the record valid. -/
def severity : Finding → Severity
  | .stateIdMismatch _ _ => .warning
  | .invalidTransition _ _ _ => .warning
  | _ => .failure

def text : Finding → String
  | .invalidPrimitive primitive examples =>
    s!"Unknown primitive: {primitive}. Available: " ++ ", ".intercalate examples ++ ", ..."
  | .invalidContext context examples =>
    s!"Unknown context: {context}. Available: " ++ ", ".intercalate examples ++ ", ..."
  | .invalidState stateId => s!"State ID not found in matrix: {stateId}"
  | .stateIdMismatch logged expected => s!"State ID mismatch: got '{logged}', expected '{expected}'"
  | .invalidTransition source target (.unknownState stateId) =>
    s!"Transition {source} -> {target}: State ID not found in matrix: {stateId}"
  | .invalidTransition source target .notAllowed =>
    s!"Transition {source} -> {target} is not in the transition graph"
  | .malformed error => error.message

end Finding

namespace TransitionFault

def toJson : TransitionFault → Json
  | .unknownState stateId => .object [("fault", .string "unknown-state"), ("state_id", .string stateId)]
  | .notAllowed => .object [("fault", .string "not-allowed")]

end TransitionFault

namespace Finding

def texts (values : List String) : Json := .array (values.map .string)

def toJson : Finding → Json
  | .invalidPrimitive primitive examples =>
    .object [("kind", .string "invalid-primitive"), ("primitive", .string primitive), ("examples", texts examples)]
  | .invalidContext context examples =>
    .object [("kind", .string "invalid-context"), ("context", .string context), ("examples", texts examples)]
  | .invalidState stateId => .object [("kind", .string "invalid-state"), ("state_id", .string stateId)]
  | .stateIdMismatch logged expected =>
    .object [("kind", .string "state-id-mismatch"), ("logged", .string logged), ("expected", .string expected)]
  | .invalidTransition source target cause =>
    .object [("kind", .string "invalid-transition"), ("from", .string source), ("to", .string target),
      ("cause", cause.toJson)]
  | .malformed error => .object [("kind", .string "parse"), ("message", .string error.message)]

end Finding

end StateAudit
