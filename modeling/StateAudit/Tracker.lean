import StateAudit.Validator

/-! The state of one stream, carried from each record to the next. -/

namespace StateAudit

/-- The state that the last valid record established. -/
structure Tracker where
  previous : Option String := none
deriving DecidableEq

namespace Tracker

def observe (tracker : Tracker) (validator : Validator) (record : Record) : Verdict × Tracker :=
  let (verdict, next) := validator.validate record tracker.previous
  (verdict, { previous := next })

def reset (_ : Tracker) : Tracker := {}

end Tracker

end StateAudit
