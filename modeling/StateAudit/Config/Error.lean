import StateAudit.Files.Fault

/-! Why settings cannot be used. -/

namespace StateAudit

inductive ConfigError where
  | io (path : String) (fault : Files.Fault)
  | notToml
  | unknownField (name : String)
  | wrongType (found expected : String)
  | wrongValue (found expected : String)
  | outOfRange (key : String)
deriving DecidableEq

namespace ConfigError

def fieldNames : List String := ["top_k", "recent_errors", "suggestion_limit", "display_limit", "transitions"]

def message : ConfigError → String
  | .io path fault => s!"cannot read config {path}: {fault.message}"
  | .notToml => "invalid TOML"
  | .unknownField name =>
    s!"unknown field `{name}`, expected one of " ++ ", ".intercalate (fieldNames.map fun field => s!"`{field}`")
  | .wrongType found expected => s!"invalid type: {found}, expected {expected}"
  | .wrongValue found expected => s!"invalid value: {found}, expected {expected}"
  | .outOfRange key => s!"invalid config value for `{key}`: must be at least 1"

/-- What a command that fails by the error gives as its causes, the nearest one first. Of a document
that does not fit, the reader's excerpt from it is left out. -/
def causes (error : ConfigError) : List String :=
  match error with
  | .io _ fault => [error.message, fault.message]
  | .outOfRange _ => [error.message]
  | .notToml | .unknownField _ | .wrongType _ _ | .wrongValue _ _ => [s!"invalid config: {error.message}", error.message]

end ConfigError

end StateAudit
