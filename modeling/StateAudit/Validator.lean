import StateAudit.Config
import StateAudit.Finding

/-! Validation of one record. The checks run in a fixed order and stop at the first fatal
finding: primitive, context, logged identifier (a warning), derived state, transition from the
state before (a warning). -/

namespace StateAudit

/-- At most one fatal finding, and warnings in the order in which they were raised. -/
structure Verdict where
  fatal : Option Finding := none
  warnings : List Finding := []
deriving DecidableEq

def Verdict.isValid (verdict : Verdict) : Bool := verdict.fatal.isNone

structure Validator where
  vocabulary : Vocabulary
  rules : TransitionRules := .acceptAll
  suggestionLimit : Nat := 5

namespace Validator

def ofConfig (vocabulary : Vocabulary) (config : Config) : Validator :=
  { vocabulary, rules := config.transitionRules, suggestionLimit := config.suggestionLimit }

def mismatches (logged expected : String) : List Finding :=
  if logged = expected then [] else [.stateIdMismatch logged expected]

/-- The warning about a transition; a stream that has no state yet, or an empty one, has none. -/
def transitionWarnings (validator : Validator) (previous : Option String) (target : String) : List Finding :=
  match previous with
  | none => []
  | some source =>
    if source.isEmpty then []
    else match validator.rules.fault? validator.vocabulary source target with
      | none => []
      | some cause => [.invalidTransition source target cause]

/-- Judges a record after the state before it, and gives the state for the next record: the
derived one after a valid record, the one before after any other. -/
def validate (validator : Validator) (record : Record) (previous : Option String) : Verdict × Option String :=
  let vocabulary := validator.vocabulary
  let primitive := record.primitive.getD ""
  let context := record.context.getD ""
  if !vocabulary.hasPrimitive primitive then
    ({ fatal := some (.invalidPrimitive primitive (vocabulary.primitiveExamples validator.suggestionLimit)) }, previous)
  else if !vocabulary.hasContext context then
    ({ fatal := some (.invalidContext context (vocabulary.contextExamples validator.suggestionLimit)) }, previous)
  else
    let expected := deriveStateId primitive context
    let warnings := mismatches (record.stateId.getD "") expected
    if !vocabulary.contains expected then
      ({ fatal := some (.invalidState expected), warnings }, previous)
    else ({ warnings := warnings ++ validator.transitionWarnings previous expected }, some expected)

end Validator

end StateAudit
