import StateAudit.Transition

/-! Settings for validation and aggregation. -/

namespace StateAudit

structure Config where
  topK : Nat := 10
  recentErrors : Nat := 10
  /-- How many legal labels a finding suggests. -/
  suggestionLimit : Nat := 5
  /-- How many errors and warnings the text of a report shows. -/
  displayLimit : Nat := 10
  /-- The targets of every state with listed transitions; without it all are legal. -/
  transitions : Option (Dictionary (List String)) := none

namespace Config

/-- The first setting that must be positive and is not. -/
def invalidKey? (config : Config) : Option String :=
  if config.topK = 0 then some "top_k"
  else if config.recentErrors = 0 then some "recent_errors"
  else if config.displayLimit = 0 then some "display_limit"
  else none

def edges (graph : Dictionary (List String)) : List (String × String) :=
  (graph.flatMap fun (source, targets) => targets.map fun target => (source, target)).eraseDups

def transitionRules (config : Config) : TransitionRules :=
  match config.transitions with
  | none => .acceptAll
  | some graph => .only (edges graph)

end Config

end StateAudit
