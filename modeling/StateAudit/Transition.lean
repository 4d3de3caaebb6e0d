import StateAudit.Vocabulary

/-! Transitions from one state to the next. -/

namespace StateAudit

inductive TransitionRules where
  | acceptAll
  | only (edges : List (String × String))

inductive TransitionFault where
  | unknownState (stateId : String)
  | notAllowed
deriving DecidableEq

namespace TransitionRules

/-- Whether the edge is listed, whatever its ends are. -/
def allows : TransitionRules → (source target : String) → Bool
  | .acceptAll, _, _ => true
  | .only edges, source, target => edges.contains (source, target)

/-- The first fault of a transition: an unknown end, then a missing edge. -/
def fault? (rules : TransitionRules) (vocabulary : Vocabulary) (source target : String) : Option TransitionFault :=
  if !vocabulary.contains source then some (.unknownState source)
  else if !vocabulary.contains target then some (.unknownState target)
  else if rules.allows source target then none
  else some .notAllowed

end TransitionRules

end StateAudit
