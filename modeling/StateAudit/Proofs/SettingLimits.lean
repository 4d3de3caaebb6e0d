import StateAudit.Proofs.AggregateRun
import StateAudit.Proofs.RecentWindow
import StateAudit.Proofs.ReportRun

/-! The limits among the settings cut what a report or a summary shows and decide nothing in it.
A run under a smaller limit is the run under a larger one, cut at the places the limit is about. -/

namespace StateAudit

def Finding.abridge (limit : Nat) : Finding → Finding
  | .invalidPrimitive primitive examples => .invalidPrimitive primitive (examples.take limit)
  | .invalidContext context examples => .invalidContext context (examples.take limit)
  | other => other

def Verdict.abridge (limit : Nat) (verdict : Verdict) : Verdict :=
  { verdict with fatal := verdict.fatal.map (Finding.abridge limit) }

def Diagnostic.abridge (limit : Nat) (diagnostic : Diagnostic) : Diagnostic :=
  { diagnostic with reason := diagnostic.reason.abridge limit }

/-- The report with only the first labels of every suggestion. -/
def Report.abridge (limit : Nat) (report : Report) : Report :=
  { report with errors := report.errors.map (Diagnostic.abridge limit) }

@[simp] theorem Verdict.isValid_abridge (limit : Nat) (verdict : Verdict) :
    (verdict.abridge limit).isValid = verdict.isValid :=
  Option.isNone_map

namespace Validator
variable (vocabulary : Vocabulary) (rules : TransitionRules) {few many : Nat} (fewer : few ≤ many)

include fewer in
theorem fatal?_abridge (record : Record) : fatal? ⟨vocabulary, rules, few⟩ record =
    (fatal? ⟨vocabulary, rules, many⟩ record).map (Finding.abridge few) := by
  have shorter (labels : List String) : labels.take few = (labels.take many).take few := by
    rw [List.take_take, Nat.min_eq_left fewer]
  simp only [fatal?, Vocabulary.primitiveExamples, Vocabulary.contextExamples]
  split
  next => rw [Option.map_some, Finding.abridge, ← shorter]
  next =>
    split
    next => rw [Option.map_some, Finding.abridge, ← shorter]
    next =>
      -- An unknown state is found with no suggestion that a limit could cut.
      split
      next => rfl
      next => rfl

include fewer in
/-- The state for the next record is the same, so that the limit never reaches a later verdict. -/
theorem validate_abridge (record : Record) (previous : Option String) :
    validate ⟨vocabulary, rules, few⟩ record previous =
      ((validate ⟨vocabulary, rules, many⟩ record previous).1.abridge few,
        (validate ⟨vocabulary, rules, many⟩ record previous).2) := by
  rw [validate_eq, validate_eq, fatal?_abridge vocabulary rules fewer]
  cases fatal? ⟨vocabulary, rules, many⟩ record <;> rfl

end Validator

namespace Stream

def Judgement.abridge (limit : Nat) (judgement : Judgement) : Judgement :=
  { judgement with verdict := judgement.verdict.abridge limit }

@[simp] theorem Judgement.verdict_abridge (limit : Nat) (judgement : Judgement) :
    (judgement.abridge limit).verdict = judgement.verdict.abridge limit := rfl

@[simp] theorem Judgement.error?_abridge (limit : Nat) (judgement : Judgement) :
    (judgement.abridge limit).error? = judgement.error?.map (Diagnostic.abridge limit) := by
  rw [Judgement.error?, Judgement.error?, verdict_abridge, Verdict.abridge, Option.map_map, Option.map_map]
  rfl

@[simp] theorem Judgement.warnings_abridge (limit : Nat) (judgement : Judgement) :
    (judgement.abridge limit).warnings = judgement.warnings := rfl

theorem reportOf_abridge (limit : Nat) (judgements : List Judgement) :
    reportOf (judgements.map (Judgement.abridge limit)) = (reportOf judgements).abridge limit := by
  apply Report.ext
  case total => simp [reportOf, Report.abridge]
  case valid => simp [reportOf, Report.abridge, Function.comp_def]
  case invalid => simp [reportOf, Report.abridge, Function.comp_def]
  case errors => simp [reportOf, Report.abridge, Function.comp_def, List.filterMap_map, List.map_filterMap]
  case warnings => simp [reportOf, Report.abridge, List.flatMap_map]

theorem judge_abridge (vocabulary : Vocabulary) (rules : TransitionRules) {few many : Nat} (fewer : few ≤ many)
    (previous : Option String) (readings : List Reading) :
    judge ⟨vocabulary, rules, few⟩ previous readings =
      (judge ⟨vocabulary, rules, many⟩ previous readings).map (Judgement.abridge few) := by
  induction readings generalizing previous with
  | nil => rfl
  | cons reading rest ih =>
    obtain ⟨line, result⟩ := reading
    rw [judge, judge, List.map_cons, ← ih]
    cases result with
    | error error => rfl
    | ok record =>
      simp only [Reading.verdict, Reading.next, Validator.validate_abridge vocabulary rules fewer]
      rfl

theorem validate_abridge {config other : Config} (same : config.transitions = other.transitions)
    (fewer : config.suggestionLimit ≤ other.suggestionLimit) (vocabulary : Vocabulary) (source : String)
    (chunks : List Chunk) :
    let full := validate (.ofConfig vocabulary other) source chunks
    validate (.ofConfig vocabulary config) source chunks =
      { full with value := full.value.abridge config.suggestionLimit } := by
  have rules : config.transitionRules = other.transitionRules := by
    rw [Config.transitionRules, same, Config.transitionRules]
  intro full
  simp only [full, validate_lines, Validator.ofConfig, rules]
  rw [judge_abridge vocabulary other.transitionRules fewer, reportOf_abridge]

end Stream

/-- What the reports on a stream under two settings with the same transitions have in common. -/
structure Report.UpToLimits (config other : Config) (report full : Report) : Prop where
  total : report.total = full.total
  valid : report.valid = full.valid
  invalid : report.invalid = full.invalid
  passed : report.passed = full.passed
  successRate : report.successRate = full.successRate
  warnings : report.warnings = full.warnings
  errors : config.suggestionLimit ≤ other.suggestionLimit →
    report.errors = full.errors.map (Diagnostic.abridge config.suggestionLimit)
  others : config.suggestionLimit = other.suggestionLimit → report = full

/-- What the summaries of the same observations under any two settings have in common. -/
structure Summary.UpToLimits (config other : Config) (summary full : Summary) : Prop where
  others : summary =
    { full with
      topPrimitives := summary.topPrimitives
      topContexts := summary.topContexts
      errorAnalysis :=
        { full.errorAnalysis with
          types := summary.errorAnalysis.types
          primitives := summary.errorAnalysis.primitives
          recent := summary.errorAnalysis.recent } }
  primitives : config.topK ≤ other.topK → summary.topPrimitives <+: full.topPrimitives
  contexts : config.topK ≤ other.topK → summary.topContexts <+: full.topContexts
  errorTypes : config.topK ≤ other.topK → summary.errorAnalysis.types <+: full.errorAnalysis.types
  errorPrimitives : config.topK ≤ other.topK → summary.errorAnalysis.primitives <+: full.errorAnalysis.primitives
  recent : config.recentErrors ≤ other.recentErrors → summary.errorAnalysis.recent <:+ full.errorAnalysis.recent

theorem Stream.validate_upToLimits {config other : Config} (same : config.transitions = other.transitions)
    (vocabulary : Vocabulary) (source : String) (chunks : List Chunk) :
    let loaded := validate (.ofConfig vocabulary config) source chunks
    let full := validate (.ofConfig vocabulary other) source chunks
    loaded.problems = full.problems ∧ loaded.value.UpToLimits config other full.value := by
  intro loaded full
  have cut (fewer : config.suggestionLimit ≤ other.suggestionLimit) :
      loaded = { full with value := full.value.abridge config.suggestionLimit } :=
    validate_abridge same fewer vocabulary source chunks
  obtain ⟨problems, total, valid, invalid, warnings⟩ :
      loaded.problems = full.problems ∧ loaded.value.total = full.value.total ∧
        loaded.value.valid = full.value.valid ∧ loaded.value.invalid = full.value.invalid ∧
        loaded.value.warnings = full.value.warnings := by
    -- Whichever of the two limits is smaller, its report is the other one abridged.
    rcases Nat.le_total config.suggestionLimit other.suggestionLimit with fewer | more
    · rw [cut fewer]
      exact ⟨rfl, rfl, rfl, rfl, rfl⟩
    · have back : full = { loaded with value := loaded.value.abridge other.suggestionLimit } :=
        validate_abridge same.symm more vocabulary source chunks
      rw [back]
      exact ⟨rfl, rfl, rfl, rfl, rfl⟩
  refine ⟨problems, ?_⟩
  constructor
  case total => exact total
  case valid => exact valid
  case invalid => exact invalid
  case passed => rw [Report.passed, Report.passed, invalid]
  case successRate => rw [Report.successRate, Report.successRate, valid, total]
  case warnings => exact warnings
  case errors =>
    intro fewer
    rw [cut fewer]
    rfl
  case others =>
    intro equal
    simp only [loaded, full, Validator.ofConfig, Config.transitionRules, same, equal]

theorem FrequencyTable.mostCommon_prefix (table : FrequencyTable) {few many : Nat} (fewer : few ≤ many) :
    table.mostCommon few <+: table.mostCommon many := by
  rw [mostCommon, mostCommon]
  exact List.take_prefix_take_left fewer

theorem Aggregate.summarize_upToLimits (config other : Config) (observations : List Observation) :
    ((ofConfig config).run observations).summarize.UpToLimits config other
      ((ofConfig other).run observations).summarize := by
  rw [run_eq, run_eq]
  constructor
  case others => rfl
  case recent =>
    intro smaller
    exact Window.suffix_foldl_push smaller _
  all_goals
    intro fewer
    exact FrequencyTable.mostCommon_prefix _ fewer

/-- Limits cut the labels that a report suggests, the tables of a summary and its recent errors.
They change nothing else, and each nothing but what it is about. -/
theorem limits_truncate (config other : Config) :
    (∀ (vocabulary : Vocabulary) (source : String) (chunks : List Stream.Chunk),
      config.transitions = other.transitions →
      let loaded := Stream.validate (.ofConfig vocabulary config) source chunks
      let full := Stream.validate (.ofConfig vocabulary other) source chunks
      loaded.problems = full.problems ∧ loaded.value.UpToLimits config other full.value) ∧
    ∀ observations : List Observation,
      ((Aggregate.ofConfig config).run observations).summarize.UpToLimits config other
        ((Aggregate.ofConfig other).run observations).summarize := by
  constructor
  · intro vocabulary source chunks same
    exact Stream.validate_upToLimits same vocabulary source chunks
  · intro observations
    exact Aggregate.summarize_upToLimits config other observations

/-- Settings that keep one of everything. -/
def sparing : Config := { topK := 1, recentErrors := 1, suggestionLimit := 1 }

def bareFailure : Observation :=
  .record { primitive := none, context := none, stateId := none, status := .error, message := none
            performance := {}, members := [] }

theorem limits_sparing :
    let vocabulary : Vocabulary := { primitives := ["read", "write"] }
    let log : List Stream.Chunk := [.bytes [123, 125, 10]]
    let reasons := fun config =>
      (Stream.validate (.ofConfig vocabulary config) "log" log).value.errors.map (·.reason)
    let recent := fun config =>
      ((Aggregate.ofConfig config).run [bareFailure, bareFailure]).summarize.errorAnalysis.recent
    sparing.transitions = ({} : Config).transitions ∧
      reasons {} = #[.invalidPrimitive "" ["read", "write"]] ∧ reasons sparing = #[.invalidPrimitive "" ["read"]] ∧
      (recent {}).length = 2 ∧ (recent sparing).length = 1 ∧ recent sparing <:+ recent {} := by
  intro vocabulary log reasons recent
  obtain ⟨reports, summaries⟩ := limits_truncate sparing {}
  have suggested : reasons {} = #[.invalidPrimitive "" ["read", "write"]] := by decide +kernel
  have cut := (reports vocabulary "log" log rfl).2.errors (by decide)
  refine ⟨rfl, suggested, ?_, by decide +kernel, by decide +kernel, ?_⟩
  · calc reasons sparing = (reasons {}).map (Finding.abridge 1) := by
          simp only [reasons, cut, Array.map_map]
          rfl
      _ = #[.invalidPrimitive "" ["read"]] := by simp [suggested, Finding.abridge]
  · exact (summaries [bareFailure, bareFailure]).recent (by decide)

end StateAudit
