import StateAudit.Proofs.ReportRun
import StateAudit.Proofs.TornTables
import Mathlib.Data.List.Nodup

/-! Validation by a vocabulary and by one that knows more. A record that the first accepts is accepted
by the second, whatever record came before it, so over a stream no line is lost, although newly valid
lines change the states from which the later ones are reached. -/

namespace StateAudit

/-- Whatever the first vocabulary knows, the second knows as well. -/
structure Vocabulary.Within (first second : Vocabulary) : Prop where
  primitives : ∀ primitive, first.hasPrimitive primitive = true → second.hasPrimitive primitive = true
  contexts : ∀ context, first.hasContext context = true → second.hasContext context = true
  states : ∀ stateId, first.contains stateId = true → second.contains stateId = true

theorem Vocabulary.within_ofStates {states others : List State} (subset : states ⊆ others) :
    Within (ofStates states) (ofStates others) := by
  constructor
  case primitives =>
    intro primitive
    rw [hasPrimitive_ofStates, hasPrimitive_ofStates]
    rintro ⟨filled, state, member, labelled⟩
    exact ⟨filled, state, subset member, labelled⟩
  case contexts =>
    intro context
    rw [hasContext_ofStates, hasContext_ofStates]
    rintro ⟨filled, state, member, labelled⟩
    exact ⟨filled, state, subset member, labelled⟩
  case states =>
    intro stateId
    rw [contains_ofStates, contains_ofStates]
    rintro ⟨named, state, member, same⟩
    exact ⟨named, state, subset member, same⟩

namespace Validator
variable {first second : Validator} {record : Record}

theorem accepts_within (within : first.vocabulary.Within second.vocabulary) (accepted : first.accepts record = true) :
    second.accepts record = true := by
  rw [accepts_iff] at accepted ⊢
  obtain ⟨primitive, context, state⟩ := accepted
  exact ⟨within.primitives _ primitive, within.contexts _ context, within.states _ state⟩

/-- A state is unknown only to a vocabulary that knows primitive and context. -/
theorem fatal?_eq_invalidState {validator : Validator} {stateId : String} :
    validator.fatal? record = some (.invalidState stateId) ↔
      validator.vocabulary.hasPrimitive (record.primitive.getD "") = true ∧
        validator.vocabulary.hasContext (record.context.getD "") = true ∧
        validator.vocabulary.contains record.derivedId = false ∧ record.derivedId = stateId := by
  rw [fatal?]
  cases validator.vocabulary.hasPrimitive (record.primitive.getD "") <;>
    cases validator.vocabulary.hasContext (record.context.getD "") <;>
      cases validator.vocabulary.contains record.derivedId <;> simp

theorem unknown_within (within : first.vocabulary.Within second.vocabulary) {stateId : String}
    (unknown : first.fatal? record = some (.invalidState stateId)) :
    second.fatal? record = some (.invalidState stateId) ∨ second.accepts record = true := by
  obtain ⟨primitive, context, -, same⟩ := fatal?_eq_invalidState.mp unknown
  cases known : second.vocabulary.contains record.derivedId with
  | false =>
    exact .inl (fatal?_eq_invalidState.mpr ⟨within.primitives _ primitive, within.contexts _ context, known, same⟩)
  | true => exact .inr ((accepts_iff second record).mpr ⟨within.primitives _ primitive, within.contexts _ context, known⟩)

end Validator

namespace Stream

/-- The fatal finding on a line. The state before it has no part in it. -/
def Reading.fatal? (validator : Validator) (reading : Reading) : Option Finding :=
  match reading.result with
  | .ok record => validator.fatal? record
  | .error error => some (.malformed error)

theorem Reading.fatal_verdict (validator : Validator) (previous : Option String) (reading : Reading) :
    (reading.verdict validator previous).fatal = reading.fatal? validator := by
  obtain ⟨line, result⟩ := reading
  cases result with
  | error error => rfl
  | ok record => exact Validator.fatal_validate validator record previous

theorem Reading.isSome_accepted? (validator : Validator) (reading : Reading) :
    (reading.accepted? validator).isSome = (reading.fatal? validator).isNone := by
  rw [← isValid_verdict validator none, Verdict.isValid, fatal_verdict]

theorem Reading.fatal?_accepted {validator : Validator} {reading : Reading} {record : Record}
    (accepted : reading.accepted? validator = some record) : reading.fatal? validator = none := by
  have valid := reading.isSome_accepted? validator
  rw [accepted] at valid
  exact Option.isNone_iff_eq_none.mp valid.symm

theorem mem_errors_judge {validator : Validator} {previous : Option String} {readings : List Reading}
    {error : Diagnostic} : error ∈ (reportOf (judge validator previous readings)).errors ↔
      ∃ reading ∈ readings, ∃ finding, reading.fatal? validator = some finding ∧ reading.diagnose finding = error := by
  simp only [reportOf, List.mem_toArray, List.mem_filterMap, Judgement.error?, Option.map_eq_some_iff]
  constructor
  · rintro ⟨judgement, member, finding, fatal, rfl⟩
    obtain ⟨inside, state, judged⟩ := mem_judge validator previous member
    rw [judged, Reading.fatal_verdict] at fatal
    exact ⟨judgement.reading, inside, finding, fatal, rfl⟩
  · rintro ⟨reading, member, finding, fatal, rfl⟩
    obtain ⟨state, inside⟩ := judge_mem validator previous member
    exact ⟨_, inside, finding, (reading.fatal_verdict validator state).trans fatal, rfl⟩

/-- What a stream gains, and that it loses nothing, when its validator comes to know more. -/
structure Gains (first second : Validator) (source : String) (chunks : List Chunk) : Prop where
  problems : (validate second source chunks).problems = (validate first source chunks).problems
  total : (validate second source chunks).value.total = (validate first source chunks).value.total
  /-- Valid lines stay valid, with their records. -/
  accepted : (accepted first (readings (entries chunks))).Sublist (accepted second (readings (entries chunks)))
  rejected : ∀ error ∈ (validate second source chunks).value.errors,
    ∃ before ∈ (validate first source chunks).value.errors, before.line = error.line
  valid : (validate first source chunks).value.valid ≤ (validate second source chunks).value.valid
  invalid : (validate second source chunks).value.invalid ≤ (validate first source chunks).value.invalid
  passed : (validate first source chunks).value.passed = true → (validate second source chunks).value.passed = true
  /-- A line whose state is unknown has the same error again, or is a valid line, without any. -/
  unknown : ∀ error ∈ (validate first source chunks).value.errors, ∀ stateId, error.reason = .invalidState stateId →
    error ∈ (validate second source chunks).value.errors ∨
      (∃ record, (error.line, record) ∈ Stream.accepted second (readings (entries chunks))) ∧
        ∀ other ∈ (validate second source chunks).value.errors, other.line ≠ error.line

theorem readings_line_injective {chunks : List Chunk} {reading other : Reading}
    (member : reading ∈ readings (entries chunks)) (inside : other ∈ readings (entries chunks))
    (same : reading.line = other.line) : reading = other := by
  rw [entries, readings_entriesFrom] at member inside
  exact List.inj_on_of_nodup_map ((numbered_increasing 0 _).imp Nat.ne_of_lt) member inside same

section Within
variable {first second : Validator} (within : first.vocabulary.Within second.vocabulary)
include within

theorem accepted?_within {reading : Reading} {record : Record} (held : reading.accepted? first = some record) :
    reading.accepted? second = some record := by
  obtain ⟨read, accepts⟩ := accepted?_eq_some.mp held
  exact accepted?_eq_some.mpr ⟨read, Validator.accepts_within within accepts⟩

theorem accepted_within (readings : List Reading) : (accepted first readings).Sublist (accepted second readings) := by
  induction readings with
  | nil => exact .slnil
  | cons reading rest ih =>
    rw [accepted_cons, accepted_cons]
    refine .append ?_ ih
    cases held : reading.accepted? first with
    | none => exact List.nil_sublist _
    | some record => rw [accepted?_within within held]

theorem fatal?_within {reading : Reading} {finding : Finding} (fatal : reading.fatal? second = some finding) :
    ∃ before, reading.fatal? first = some before := by
  cases found : reading.fatal? first with
  | some before => exact ⟨before, rfl⟩
  | none =>
    have held := reading.isSome_accepted? first
    rw [found, Option.isNone_none, Option.isSome_iff_exists] at held
    obtain ⟨record, held⟩ := held
    cases fatal.symm.trans (Reading.fatal?_accepted (accepted?_within within held))

theorem errors_within {readings : List Reading} {error : Diagnostic}
    (raised : error ∈ (reportOf (judge second none readings)).errors) :
    ∃ before ∈ (reportOf (judge first none readings)).errors, before.line = error.line := by
  obtain ⟨reading, member, finding, fatal, rfl⟩ := mem_errors_judge.mp raised
  obtain ⟨before, found⟩ := fatal?_within within fatal
  exact ⟨reading.diagnose before, mem_errors_judge.mpr ⟨reading, member, before, found, rfl⟩, rfl⟩

theorem unknown?_within {reading : Reading} {stateId : String}
    (unknown : reading.fatal? first = some (.invalidState stateId)) :
    reading.fatal? second = some (.invalidState stateId) ∨ ∃ record, reading.accepted? second = some record := by
  obtain ⟨line, result⟩ := reading
  cases result with
  | error error => cases unknown
  | ok record =>
    refine (Validator.unknown_within within unknown).imp_right fun accepts => ?_
    exact ⟨record, accepted?_eq_some.mpr ⟨rfl, accepts⟩⟩

theorem unknown_errors {chunks : List Chunk} {error : Diagnostic} {stateId : String}
    (raised : error ∈ (reportOf (judge first none (readings (entries chunks)))).errors)
    (reason : error.reason = .invalidState stateId) :
    error ∈ (reportOf (judge second none (readings (entries chunks)))).errors ∨
      (∃ record, (error.line, record) ∈ accepted second (readings (entries chunks))) ∧
        ∀ other ∈ (reportOf (judge second none (readings (entries chunks)))).errors, other.line ≠ error.line := by
  obtain ⟨reading, member, finding, fatal, rfl⟩ := mem_errors_judge.mp raised
  obtain rfl : finding = .invalidState stateId := reason
  rcases unknown?_within within fatal with still | ⟨record, held⟩
  · exact .inl (mem_errors_judge.mpr ⟨reading, member, _, still, rfl⟩)
  refine .inr ⟨⟨record, List.mem_filterMap.mpr ⟨reading, member, by rw [held]; rfl⟩⟩, ?_⟩
  intro other failed same
  obtain ⟨found, inside, finding, rejects, rfl⟩ := mem_errors_judge.mp failed
  -- Lines increase, so the error is about the reading that is accepted.
  obtain rfl : found = reading := readings_line_injective inside member same
  cases rejects.symm.trans (Reading.fatal?_accepted held)

theorem gains_within (source : String) (chunks : List Chunk) : Gains first second source chunks := by
  have total : (validate second source chunks).value.total = (validate first source chunks).value.total := by
    rw [validate_value, validate_value]
    exact (length_judge second none _).trans (length_judge first none _).symm
  have valid : (validate first source chunks).value.valid ≤ (validate second source chunks).value.valid := by
    rw [validate_value, validate_value, valid_reportOf, valid_reportOf]
    exact (accepted_within within _).length_le
  have invalid : (validate second source chunks).value.invalid ≤ (validate first source chunks).value.invalid := by
    have before := total_reportOf (judge first none (readings (entries chunks)))
    have after := total_reportOf (judge second none (readings (entries chunks)))
    rw [← validate_value _ source] at before after
    omega
  constructor
  case problems => rw [validate_lines, validate_lines]
  case total => exact total
  case accepted => exact accepted_within within _
  case rejected =>
    intro error raised
    rw [validate_value] at raised ⊢
    exact errors_within within raised
  case valid => exact valid
  case invalid => exact invalid
  case passed =>
    intro passed
    rw [Report.passed, beq_iff_eq] at passed ⊢
    omega
  case unknown =>
    intro error raised stateId reason
    rw [validate_value] at raised ⊢
    exact unknown_errors within raised reason

end Within

end Stream

namespace Vocabulary

theorem load_value {tree : Files.Tree} {path : String} {content : Bytes} (opened : tree.openRead path = .ok { content }) :
    (load tree path).value = ofStates (matrix content) := by
  rw [load_opened opened]
  rfl

/-- A stream loses nothing by more rows, whatever they are. So it loses nothing when a table that breaks
is replaced by one that agrees with it up to the break. -/
theorem validate_gains (rules : TransitionRules) (limit : Nat) (source : String) (chunks : List Stream.Chunk) :
    (∀ states more, Stream.Gains ⟨ofStates states, rules, limit⟩ ⟨ofStates (states ++ more), rules, limit⟩ source chunks) ∧
    ∀ (tree other : Files.Tree) path place torn intact bad, tree.openRead path = .ok { content := torn } →
      other.openRead place = .ok { content := intact } → ofCsv torn = .error bad →
      torn.take bad.place.byte = intact.take bad.place.byte →
      Stream.Gains ⟨(load tree path).value, rules, limit⟩ ⟨(load other place).value, rules, limit⟩ source chunks := by
  constructor
  · intro states more
    exact Stream.gains_within (within_ofStates (List.subset_append_left states more)) source chunks
  · intro tree other path place torn intact bad opened found broken shared
    obtain ⟨kept, breaks⟩ := load_broken opened broken
    rw [kept, load_value found]
    exact Stream.gains_within (within_ofStates (breaks.matrix_prefix shared).subset) source chunks

/-- The torn matrix with the row that does not decode put right. -/
def mendedMatrix : Bytes :=
  Utf8.encode ("state_id,primitive,context\nPRIM_read_CTX_fs,read,fs\n" ++ "PRIM_list_CTX_fs,list,fs\n" ++
    "PRIM_write_CTX_fs,write,fs\n").toList

def mendedTree : Files.Tree := { top := .directory [("matrix.csv", .ofBytes mendedMatrix)] }

def validatorIn (tree : Files.Tree) : Validator := { vocabulary := (load tree "matrix.csv").value }

/-- Valid only for the matrix that is whole. -/
def writeLog : List Stream.Chunk := [.bytes (Utf8.encode "\x7b\"primitive\":\"write\",\"context\":\"fs\"\x7d".toList)]

theorem gains_mended :
    ofCsv tornMatrix = .error ⟨2, ⟨3, 52⟩, 0, 0⟩ ∧
      Stream.Gains (validatorIn tornTree) (validatorIn mendedTree) "audit.jsonl" writeLog ∧
      (Stream.validate (validatorIn tornTree) "audit.jsonl" writeLog).value.passed = false ∧
      (Stream.validate (validatorIn mendedTree) "audit.jsonl" writeLog).value.passed = true := by
  have broken : (Csv.readTable true tornMatrix).broken = some ⟨2, ⟨3, 52⟩, 0, 0⟩ := by decide +kernel
  have torn : ofCsv tornMatrix = .error ⟨2, ⟨3, 52⟩, 0, 0⟩ := by simp only [ofCsv, broken]
  have shared : tornMatrix.take 52 = mendedMatrix.take 52 := by decide +kernel
  obtain ⟨-, gains⟩ := validate_gains .acceptAll 5 "audit.jsonl" writeLog
  have found : mendedTree.openRead "matrix.csv" = .ok { content := mendedMatrix } := rfl
  exact ⟨torn, gains tornTree mendedTree _ _ tornMatrix mendedMatrix _ rfl found torn shared, by decide +kernel,
    by decide +kernel⟩

end Vocabulary

end StateAudit
