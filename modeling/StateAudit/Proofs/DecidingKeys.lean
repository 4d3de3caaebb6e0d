import StateAudit.Proofs.RecordLayouts

/-! What an object says beside its primitive and its context decides nothing. Objects that agree on these
two keys are read alike or refused alike. Where they are read, one finding rejects both records or none
does, whatever the rules are and whichever states came before. -/

namespace StateAudit

/-- Objects that have the same value, or none, for each of the two keys that decide. -/
structure Record.SameOperation (members others : Json.Members) : Prop where
  primitive : members.get? "primitive" = others.get? "primitive"
  context : members.get? "context" = others.get? "context"

/-- After a valid record its own state comes next, after any other the state before it. -/
structure Validator.Advances (validator : Validator) (record : Record) : Prop where
  valid : ∀ previous, (validator.validate record previous).1.fatal = none →
    (validator.validate record previous).2 = some record.derivedId
  rejected : ∀ previous finding, (validator.validate record previous).1.fatal = some finding →
    (validator.validate record previous).2 = previous

/-- Records that a vocabulary judges alike, each of them under its own rules and after its own state. -/
structure Vocabulary.JudgesAlike (vocabulary : Vocabulary) (limit : Nat) (record other : Record) : Prop where
  derivedId : record.derivedId = other.derivedId
  fatal : ∀ rules otherRules previous otherPrevious,
    (Validator.validate ⟨vocabulary, rules, limit⟩ record previous).1.fatal =
      (Validator.validate ⟨vocabulary, otherRules, limit⟩ other otherPrevious).1.fatal
  advances : ∀ rules, Validator.Advances ⟨vocabulary, rules, limit⟩ record ∧
    Validator.Advances ⟨vocabulary, rules, limit⟩ other

theorem Validator.advances (validator : Validator) (record : Record) : validator.Advances record where
  valid previous none := by
    rw [fatal_validate] at none
    rw [next_validate, accepts_eq, none]
    rfl
  rejected previous finding fatal := by
    rw [fatal_validate] at fatal
    rw [next_validate, accepts_eq, fatal]
    rfl

/-- Neither rules nor a logged identifier take part in the fatal finding. -/
theorem Validator.fatal?_congr {validator other : Validator} {record found : Record}
    (vocabulary : validator.vocabulary = other.vocabulary) (limit : validator.suggestionLimit = other.suggestionLimit)
    (primitive : record.primitive = found.primitive) (context : record.context = found.context) :
    validator.fatal? record = other.fatal? found := by
  rw [fatal?, fatal?, Record.derivedId, Record.derivedId, vocabulary, limit, primitive, context]

namespace Record
variable {members others : Json.Members}

theorem ofMembers_sameOperation (same : SameOperation members others) :
    (∃ error, ofMembers members = .error error ∧ ofMembers others = .error error) ∨
      ∃ record other, ofMembers members = .ok record ∧ ofMembers others = .ok other ∧
        record.primitive = other.primitive ∧ record.context = other.context := by
  rw [ofMembers, ofMembers, stringField_congr same.primitive, stringField_congr same.context]
  cases stringField others "primitive" with
  | error error => exact .inl ⟨error, rfl, rfl⟩
  | ok primitive =>
    cases stringField others "context" with
    | error error => exact .inl ⟨error, rfl, rfl⟩
    | ok context => exact .inr ⟨_, _, rfl, rfl, rfl, rfl⟩

/-- Primitive and context alone decide whether an object is read and whether its record is valid. -/
theorem judged_sameOperation (same : SameOperation members others) (vocabulary : Vocabulary) (limit : Nat) :
    (∃ error, ofJson (.object members) = .error error ∧ ofJson (.object others) = .error error) ∨
      ∃ record other, ofJson (.object members) = .ok record ∧ ofJson (.object others) = .ok other ∧
        vocabulary.JudgesAlike limit record other := by
  refine (ofMembers_sameOperation same).imp_right ?_
  rintro ⟨record, other, read, also, primitive, context⟩
  refine ⟨record, other, read, also, ?_⟩
  constructor
  case derivedId => rw [derivedId, derivedId, primitive, context]
  case fatal =>
    intro rules otherRules previous otherPrevious
    rw [Validator.fatal_validate, Validator.fatal_validate]
    exact Validator.fatal?_congr rfl rfl primitive context
  case advances =>
    intro rules
    exact ⟨Validator.advances _ record, Validator.advances _ other⟩

def bareObject : Json.Members := [("context", .string "net"), ("primitive", .string "write")]

/-- The same operation, with a value of the wrong type at every other key. -/
def mistypedObject : Json.Members :=
  [("context", .string "net"), ("duration_ms", .string "7"), ("error_msg", .object []), ("performance", .bool true),
    ("primitive", .string "write"), ("result", .array [.null]), ("state_id", .number (.whole 7)), ("success", .string "yes")]

def crossVocabulary : Vocabulary := .ofStates [.ofPair "read" "net", .ofPair "write" "fs"]

theorem judged_mistyped : SameOperation bareObject mistypedObject ∧
    ∃ record other, ofJson (.object bareObject) = .ok record ∧ ofJson (.object mistypedObject) = .ok other ∧
      (Validator.validate ⟨crossVocabulary, .acceptAll, 5⟩ record none).1.fatal =
        some (.invalidState "PRIM_write_CTX_net") ∧
      (Validator.validate ⟨crossVocabulary, .only [], 5⟩ other (some "PRIM_write_CTX_fs")).1.fatal =
        some (.invalidState "PRIM_write_CTX_net") ∧
      (Validator.validate ⟨crossVocabulary, .only [], 5⟩ other (some "PRIM_write_CTX_fs")).2 = some "PRIM_write_CTX_fs" := by
  have same : SameOperation bareObject mistypedObject := ⟨rfl, rfl⟩
  refine ⟨same, ?_⟩
  rcases judged_sameOperation same crossVocabulary 5 with ⟨error, refused, -⟩ | ⟨record, other, read, also, alike⟩
  · cases refused
  have rejected : (Validator.validate ⟨crossVocabulary, .acceptAll, 5⟩ record none).1.fatal =
      some (.invalidState "PRIM_write_CTX_net") := by
    cases read
    decide +kernel
  have shared := (alike.fatal .acceptAll (.only []) none (some "PRIM_write_CTX_fs")).symm.trans rejected
  exact ⟨record, other, read, also, rejected, shared, (alike.advances (.only [])).2.rejected _ _ shared⟩

end Record

end StateAudit
