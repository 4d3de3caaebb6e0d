import StateAudit.Tracker

/-! The verdict on one record. Fatal findings and mismatches come from the record and the
vocabulary; the state before takes part in the transition warning of a valid record alone. -/

namespace StateAudit

/-- The identifier that a record's primitive and context lead to. A missing one is empty. -/
def Record.derivedId (record : Record) : String :=
  deriveStateId (record.primitive.getD "") (record.context.getD "")

theorem isEmpty_deriveStateId (primitive context : String) : (deriveStateId primitive context).isEmpty = false := by
  simp [deriveStateId]

namespace Validator

def fatal? (validator : Validator) (record : Record) : Option Finding :=
  let primitive := record.primitive.getD ""
  let context := record.context.getD ""
  if !validator.vocabulary.hasPrimitive primitive then
    some (.invalidPrimitive primitive (validator.vocabulary.primitiveExamples validator.suggestionLimit))
  else if !validator.vocabulary.hasContext context then
    some (.invalidContext context (validator.vocabulary.contextExamples validator.suggestionLimit))
  else if !validator.vocabulary.contains record.derivedId then some (.invalidState record.derivedId)
  else none

/-- The warning about the logged identifier, once primitive and context are known. -/
def mismatch (validator : Validator) (record : Record) : List Finding :=
  if validator.vocabulary.hasPrimitive (record.primitive.getD "") &&
      validator.vocabulary.hasContext (record.context.getD "") then
    mismatches (record.stateId.getD "") record.derivedId
  else []

theorem validate_eq (validator : Validator) (record : Record) (previous : Option String) :
    validator.validate record previous = match validator.fatal? record with
      | some finding => ({ fatal := some finding, warnings := validator.mismatch record }, previous)
      | none =>
        ({ warnings := validator.mismatch record ++ validator.transitionWarnings previous record.derivedId },
          some record.derivedId) := by
  simp only [validate, fatal?, mismatch, Record.derivedId]
  by_cases primitive : validator.vocabulary.hasPrimitive (record.primitive.getD "") = true
  · by_cases context : validator.vocabulary.hasContext (record.context.getD "") = true
    · by_cases state : validator.vocabulary.contains
        (deriveStateId (record.primitive.getD "") (record.context.getD "")) = true
      · simp [primitive, context, state]
      · simp [primitive, context, state]
    · simp [primitive, context]
  · simp [primitive]

/-- Whether a record is valid. It does not matter after which state, as `isValid_validate` says. -/
def accepts (validator : Validator) (record : Record) : Bool := (validator.validate record none).1.isValid

theorem accepts_eq (validator : Validator) (record : Record) :
    validator.accepts record = (validator.fatal? record).isNone := by
  rw [accepts, validate_eq]
  cases validator.fatal? record <;> rfl

theorem accepts_iff (validator : Validator) (record : Record) :
    validator.accepts record = true ↔
      validator.vocabulary.hasPrimitive (record.primitive.getD "") = true ∧
      validator.vocabulary.hasContext (record.context.getD "") = true ∧
      validator.vocabulary.contains record.derivedId = true := by
  rw [accepts_eq, fatal?]
  cases validator.vocabulary.hasPrimitive (record.primitive.getD "") <;>
    cases validator.vocabulary.hasContext (record.context.getD "") <;>
      cases validator.vocabulary.contains record.derivedId <;> simp

@[simp] theorem fatal_validate (validator : Validator) (record : Record) (previous : Option String) :
    (validator.validate record previous).1.fatal = validator.fatal? record := by
  rw [validate_eq]
  cases validator.fatal? record <;> rfl

@[simp] theorem isValid_validate (validator : Validator) (record : Record) (previous : Option String) :
    (validator.validate record previous).1.isValid = validator.accepts record := by
  rw [Verdict.isValid, fatal_validate, accepts_eq]

@[simp] theorem next_validate (validator : Validator) (record : Record) (previous : Option String) :
    (validator.validate record previous).2 = if validator.accepts record then some record.derivedId else previous := by
  rw [validate_eq, accepts_eq]
  cases validator.fatal? record <;> rfl

@[simp] theorem warnings_validate (validator : Validator) (record : Record) (previous : Option String) :
    (validator.validate record previous).1.warnings = validator.mismatch record ++
      if validator.accepts record then validator.transitionWarnings previous record.derivedId else [] := by
  rw [validate_eq, accepts_eq]
  cases validator.fatal? record <;> simp

theorem mismatch_cases (validator : Validator) (record : Record) :
    validator.mismatch record = [] ∨
      ∃ logged, validator.mismatch record = [.stateIdMismatch logged record.derivedId] := by
  simp only [mismatch, mismatches]
  split
  · split
    · exact .inl rfl
    · exact .inr ⟨_, rfl⟩
  · exact .inl rfl

theorem transitionWarnings_cases (validator : Validator) (previous : Option String) (target : String) :
    validator.transitionWarnings previous target = [] ∨
      ∃ source cause, validator.transitionWarnings previous target = [.invalidTransition source target cause] := by
  simp only [transitionWarnings]
  split
  · exact .inl rfl
  · split
    · exact .inl rfl
    · split
      · exact .inl rfl
      · exact .inr ⟨_, _, rfl⟩

/-- At most one warning of each kind, the mismatch first. -/
theorem warnings_sublist (validator : Validator) (record : Record) (previous : Option String) :
    ∃ logged source cause, (validator.validate record previous).1.warnings.Sublist
      [.stateIdMismatch logged record.derivedId, .invalidTransition source record.derivedId cause] := by
  obtain ⟨logged, first⟩ : ∃ logged,
      (validator.mismatch record).Sublist [.stateIdMismatch logged record.derivedId] := by
    rcases mismatch_cases validator record with none | ⟨logged, one⟩
    · exact ⟨"", none ▸ List.nil_sublist _⟩
    · exact ⟨logged, one ▸ List.Sublist.refl _⟩
  obtain ⟨source, cause, second⟩ : ∃ source cause,
      (if validator.accepts record then validator.transitionWarnings previous record.derivedId else []).Sublist
        [.invalidTransition source record.derivedId cause] := by
    split
    · rcases transitionWarnings_cases validator previous record.derivedId with none | ⟨source, cause, one⟩
      · exact ⟨"", .notAllowed, none ▸ List.nil_sublist _⟩
      · exact ⟨source, cause, one ▸ List.Sublist.refl _⟩
    · exact ⟨"", .notAllowed, List.nil_sublist _⟩
  refine ⟨logged, source, cause, ?_⟩
  rw [warnings_validate]
  exact first.append second

/-- A record with a fatal finding keeps a warning only when its state is what is unknown. -/
theorem fatal_cases (validator : Validator) (record : Record) {finding : Finding}
    (fatal : validator.fatal? record = some finding) :
    finding.severity = .failure ∧ (∀ error, finding ≠ .malformed error) ∧
      (validator.mismatch record = [] ∨ finding = .invalidState record.derivedId) := by
  simp only [fatal?, mismatch] at fatal ⊢
  split at fatal
  next unknown =>
    cases fatal
    simp_all [Finding.severity]
  next =>
    split at fatal
    next unknown =>
      cases fatal
      simp_all [Finding.severity]
    next =>
      split at fatal
      · cases fatal
        simp [Finding.severity]
      · cases fatal

theorem rejected_with_warning (validator : Validator) (record : Record) (previous : Option String) {finding : Finding}
    (fatal : (validator.validate record previous).1.fatal = some finding)
    (warned : (validator.validate record previous).1.warnings ≠ []) :
    finding = .invalidState record.derivedId ∧ ∃ logged,
      (validator.validate record previous).1.warnings = [.stateIdMismatch logged record.derivedId] := by
  rw [fatal_validate] at fatal
  rw [warnings_validate, accepts_eq, fatal, Option.isNone_some] at warned ⊢
  simp only [Bool.false_eq_true, ↓reduceIte, List.append_nil] at warned ⊢
  obtain ⟨_, _, quiet | unknown⟩ := fatal_cases validator record fatal
  · exact absurd quiet warned
  · exact ⟨unknown, (mismatch_cases validator record).resolve_left warned⟩

theorem transitionWarnings_known (validator : Validator) {source target : String} (named : source.isEmpty = false)
    (known : validator.vocabulary.contains source = true) (reached : validator.vocabulary.contains target = true) :
    validator.transitionWarnings (some source) target =
      if validator.rules.allows source target then [] else [.invalidTransition source target .notAllowed] := by
  simp only [transitionWarnings, named, TransitionRules.fault?, known, reached, Bool.not_true, Bool.false_eq_true,
    ↓reduceIte]
  cases validator.rules.allows source target <;> rfl

theorem transitionWarnings_accepted (validator : Validator) {first second : Record}
    (before : validator.accepts first = true) (after : validator.accepts second = true) :
    validator.transitionWarnings (some first.derivedId) second.derivedId =
      if validator.rules.allows first.derivedId second.derivedId then []
      else [.invalidTransition first.derivedId second.derivedId .notAllowed] :=
  transitionWarnings_known validator (isEmpty_deriveStateId _ _)
    ((accepts_iff validator first).mp before).2.2 ((accepts_iff validator second).mp after).2.2

end Validator

end StateAudit
