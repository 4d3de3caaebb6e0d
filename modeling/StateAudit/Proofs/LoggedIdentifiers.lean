import StateAudit.Proofs.JsonRoundTrip
import StateAudit.Proofs.RecordVerdict
import StateAudit.Proofs.StreamReadings

/-! The identifier that an object logs. It passes for the derived one only where it is a string with the
same text: any other value is compared by its JSON text, and no JSON text begins as an identifier does. -/

namespace StateAudit

def Finding.isMismatch : Finding → Bool
  | .stateIdMismatch _ _ => true
  | _ => false

/-- A record whose primitive and context are both known. -/
def Validator.Knows (validator : Validator) (record : Record) : Prop :=
  validator.vocabulary.hasPrimitive (record.primitive.getD "") = true ∧
    validator.vocabulary.hasContext (record.context.getD "") = true

/-- What the warnings on an object have to do with the identifier that it logs. -/
structure Validator.Compares (validator : Validator) (members : Json.Members) (record : Record)
    (warnings : List Finding) : Prop where
  /-- Of all values only the string that is the derived identifier passes for it. -/
  passes : record.stateId.getD "" = record.derivedId ↔ members.get? "state_id" = some (.string record.derivedId)
  differs : validator.Knows record → members.get? "state_id" ≠ some (.string record.derivedId) →
    warnings.filter Finding.isMismatch = [.stateIdMismatch (record.stateId.getD "") record.derivedId]
  agrees : validator.Knows record → members.get? "state_id" = some (.string record.derivedId) →
    warnings.filter Finding.isMismatch = []
  unknown : ¬ validator.Knows record → warnings = []
  /-- Where the derived state is unknown, nothing but a mismatch is warned of. -/
  stateless : validator.vocabulary.contains record.derivedId = false →
    ∀ warning ∈ warnings, warning.isMismatch = true

namespace Json

theorem isUpper_digit {char : Char} (digit : Decimal.isDigit char = true) : char.isUpper = false := by
  simp only [Decimal.isDigit, Bool.and_eq_true, decide_eq_true_eq, Char.le_def, UInt32.le_iff_toNat_le] at digit
  apply decide_eq_false
  intro capital
  have letter : 'A'.val.toNat ≤ char.val.toNat := UInt32.le_iff_toNat_le.mp capital.1
  have nine : '9'.val.toNat = 57 := rfl
  have first : 'A'.val.toNat = 65 := rfl
  omega

/-- A double that is not finite is written as a word, every other number from a minus sign or a digit on. -/
theorem printNumber_first (number : Number) :
    ∃ first others, printNumber number = first :: others ∧ first.isUpper = false := by
  have written : (∃ first others, printNumber number = first :: others ∧ (first = '-' ∨ Decimal.isDigit first = true)) ∨
      printNumber number = "null".toList := by
    cases number with
    | whole value => exact .inl (Parser.signed_head value)
    | double value =>
      by_cases finite : value.isFinite = true
      · have readable : (Number.double value).Readable := finite
        exact .inl (Parser.printNumber_head readable)
      · exact .inr (if_neg finite)
  rcases written with ⟨first, others, form, rfl | digit⟩ | word
  · exact ⟨_, others, form, rfl⟩
  · exact ⟨first, others, form, isUpper_digit digit⟩
  · exact ⟨_, _, word, rfl⟩

/-- No JSON text begins with a capital letter. -/
theorem print_first (value : Json) (rest : List Char) :
    ∃ first others, value.print rest = first :: others ∧ first.isUpper = false := by
  cases value with
  | null => exact ⟨_, _, rfl, rfl⟩
  | bool value => cases value <;> exact ⟨_, _, rfl, rfl⟩
  | number number =>
    obtain ⟨first, others, form, small⟩ := printNumber_first number
    exact ⟨first, _, congrArg (· ++ rest) form, small⟩
  | string text => exact ⟨_, _, rfl, rfl⟩
  | array items => exact ⟨_, _, rfl, rfl⟩
  | object members => exact ⟨_, _, rfl, rfl⟩

theorem compact_ne_deriveStateId (value : Json) (primitive context : String) :
    value.compact ≠ deriveStateId primitive context := by
  intro same
  obtain ⟨first, others, form, small⟩ := value.print_first []
  have letters := congrArg String.toList same
  rw [compact, form, String.toList_ofList, deriveStateId] at letters
  simp only [String.toList_append] at letters
  obtain ⟨rfl, -⟩ := List.cons.inj letters
  cases small

end Json

theorem Record.textField_eq_deriveStateId (members : Json.Members) (key primitive context : String) :
    (textField members key).getD "" = deriveStateId primitive context ↔
      members.get? key = some (.string (deriveStateId primitive context)) := by
  have filled : "" ≠ deriveStateId primitive context := by
    intro empty
    have none := isEmpty_deriveStateId primitive context
    rw [← empty] at none
    cases none
  rw [textField]
  split
  next absent => simp [absent, filled]
  next null => simp [null, filled]
  next text found => simp [found]
  next value _ other found =>
    rw [found]
    refine iff_of_false (value.compact_ne_deriveStateId primitive context) ?_
    rintro ⟨⟩
    exact other _ rfl

namespace Validator
variable (validator : Validator) (record : Record) (previous : Option String)

theorem filter_warnings :
    (validator.validate record previous).1.warnings.filter Finding.isMismatch = validator.mismatch record := by
  have kept : (validator.mismatch record).filter Finding.isMismatch = validator.mismatch record := by
    rcases mismatch_cases validator record with none | ⟨logged, one⟩
    · rw [none, List.filter_nil]
    · rw [one]
      rfl
  have dropped (target : String) : (validator.transitionWarnings previous target).filter Finding.isMismatch = [] := by
    rcases transitionWarnings_cases validator previous target with none | ⟨source, cause, one⟩
    · rw [none, List.filter_nil]
    · rw [one]
      rfl
  rw [warnings_validate, List.filter_append, kept]
  split
  · rw [dropped, List.append_nil]
  · rw [List.filter_nil, List.append_nil]

theorem mismatch_known {validator : Validator} {record : Record} (known : validator.Knows record) :
    validator.mismatch record = mismatches (record.stateId.getD "") record.derivedId := by
  rw [mismatch, known.1, known.2]
  rfl

theorem accepts_unknown {validator : Validator} {record : Record} (unknown : ¬ validator.Knows record) :
    validator.accepts record = false ∧ validator.mismatch record = [] := by
  constructor
  · rw [Bool.eq_false_iff]
    intro accepted
    obtain ⟨primitive, context, -⟩ := (accepts_iff validator record).mp accepted
    exact unknown ⟨primitive, context⟩
  · rw [mismatch, if_neg]
    rw [Bool.and_eq_true]
    exact unknown

/-- One warning tells a logged identifier that is not the derived one, and nothing else can stand for it. -/
theorem validate_compares {members : Json.Members} {record : Record}
    (read : Record.ofJson (.object members) = .ok record) :
    validator.Compares members record (validator.validate record previous).1.warnings := by
  have logged : record.stateId = Record.textField members "state_id" :=
    congrArg Record.stateId (Record.ofMembers_eq_ok read).2.2
  have passes : record.stateId.getD "" = record.derivedId ↔
      members.get? "state_id" = some (.string record.derivedId) := by
    rw [logged]
    exact Record.textField_eq_deriveStateId members "state_id" _ _
  constructor
  case passes => exact passes
  case differs =>
    intro known other
    rw [filter_warnings, mismatch_known known, mismatches, if_neg (passes.not.mpr other)]
  case agrees =>
    intro known same
    rw [filter_warnings, mismatch_known known, mismatches, if_pos (passes.mpr same)]
  case unknown =>
    intro unknown
    obtain ⟨rejected, quiet⟩ := accepts_unknown unknown
    rw [warnings_validate, rejected, quiet]
    rfl
  case stateless =>
    intro unlisted
    have rejected : validator.accepts record = false := by
      rw [Bool.eq_false_iff]
      intro accepted
      rw [((accepts_iff validator record).mp accepted).2.2] at unlisted
      cases unlisted
    rw [← List.filter_eq_self, filter_warnings, warnings_validate, rejected]
    exact (List.append_nil _).symm

end Validator

def enclosedIdentifier : Json.Members :=
  [("context", .string "fs"), ("primitive", .string "read"), ("state_id", .array [.string "PRIM_read_CTX_fs"])]

def lone : Validator := { vocabulary := .ofStates [.ofPair "read" "fs"] }

/-- The derived identifier does not pass from within an array. -/
theorem validate_enclosed : ∃ record, Record.ofJson (.object enclosedIdentifier) = .ok record ∧ lone.Knows record ∧
    (lone.validate record none).1.warnings.filter Finding.isMismatch =
      [.stateIdMismatch "[\"PRIM_read_CTX_fs\"]" "PRIM_read_CTX_fs"] := by
  obtain ⟨record, read⟩ : ∃ record, Record.ofJson (.object enclosedIdentifier) = .ok record := ⟨_, rfl⟩
  have known : lone.Knows record := by
    cases read
    exact ⟨by decide +kernel, by decide +kernel⟩
  have logged : record.stateId.getD "" = "[\"PRIM_read_CTX_fs\"]" := by
    cases read
    decide +kernel
  have derived : record.derivedId = "PRIM_read_CTX_fs" := by
    cases read
    decide +kernel
  have warned := (Validator.validate_compares lone none read).differs known nofun
  rw [logged, derived] at warned
  exact ⟨record, read, known, warned⟩

end StateAudit
