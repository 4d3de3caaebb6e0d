import StateAudit.Proofs.AnalysisRun
import StateAudit.Proofs.ReportAccounting
import StateAudit.Stream.File

/-! Validation and analysis read a log alike. A line counts for both or for neither, as a record
or as a line that holds none, and both have the same problems with the log. -/

namespace StateAudit

def Finding.isMalformed : Finding → Bool
  | .malformed _ => true
  | _ => false

namespace Stream

open Observation (records malformedCount)

/-- What an analysis adds to an aggregate is what a validation reports. -/
structure Agrees (report : Report) (before after : Aggregate) : Prop where
  total : after.total + after.malformed = before.total + before.malformed + report.total
  malformed : after.malformed = before.malformed + report.errors.countP (·.reason.isMalformed)
  records : after.total = before.total + (report.valid + report.errors.countP (!·.reason.isMalformed))

private theorem malformed_verdict (validator : Validator) (previous : Option String) (reading : Reading) :
    (reportOf [⟨reading, reading.verdict validator previous⟩]).errors.countP (·.reason.isMalformed) =
      malformedCount [reading.observation] := by
  obtain ⟨line, result⟩ := reading
  cases result with
  | error error => rfl
  | ok record =>
    simp only [reportOf, List.filterMap_cons, List.filterMap_nil, Judgement.error?, Reading.verdict,
      Validator.fatal_validate]
    cases fatal : validator.fatal? record with
    | none => rfl
    | some finding =>
      have kind := (Validator.fatal_cases validator record fatal).2.1
      cases finding with
      | malformed error => exact absurd rfl (kind error)
      | invalidPrimitive _ _ | invalidContext _ _ | invalidState _ | stateIdMismatch _ _ | invalidTransition _ _ _ => rfl

theorem malformed_reportOf (validator : Validator) (previous : Option String) (readings : List Reading) :
    (reportOf (judge validator previous readings)).errors.countP (·.reason.isMalformed) =
      malformedCount (readings.map Reading.observation) := by
  induction readings generalizing previous with
  | nil => rfl
  | cons reading rest ih =>
    have split : malformedCount ([reading.observation] ++ rest.map Reading.observation) =
        malformedCount [reading.observation] + malformedCount (rest.map Reading.observation) := List.countP_append
    rw [judge, reportOf_cons, Report.append_def, Array.countP_append, malformed_verdict, ih]
    exact split.symm

private theorem errors_isMalformed (report : Report) : report.errors.size =
    report.errors.countP (·.reason.isMalformed) + report.errors.countP (!·.reason.isMalformed) := by
  have split := @Array.size_eq_countP_add_countP Diagnostic (·.reason.isMalformed) report.errors
  simpa using split

theorem agrees_run (validator : Validator) (aggregate : Aggregate) (lines : List Bytes) :
    Agrees (reportOf (judge validator none (numbered 0 lines))) aggregate (aggregate.run (observations lines)) := by
  have accounts := (judged validator none lines).accounts ((length_judge validator none _).trans (length_numbered 0 lines))
  have malformed := malformed_reportOf validator none (numbered 0 lines)
  rw [map_observation_numbered] at malformed
  have total : (records (observations lines)).length + malformedCount (observations lines) =
      (reportOf (judge validator none (numbered 0 lines))).total := by
    rw [Observation.length_records, ← map_observation_numbered 0, List.length_map, length_numbered, accounts.total]
  have errors := errors_isMalformed (reportOf (judge validator none (numbered 0 lines)))
  rw [accounts.size, malformed] at errors
  have sum := accounts.sum
  rw [Aggregate.run_eq]
  refine ⟨?_, ?_, ?_⟩
  · simp only
    omega
  · rw [malformed]
  · simp only
    omega

theorem agrees_analyze (validator : Validator) (aggregate : Aggregate) (source : String) (chunks : List Chunk) :
    Agrees (validate validator source chunks).value aggregate (analyze aggregate source chunks).value ∧
      (analyze aggregate source chunks).problems = (validate validator source chunks).problems := by
  rw [validate_lines, analyze_eq]
  exact ⟨agrees_run validator aggregate _, rfl⟩

/-- A log is counted alike by validation and by analysis, whatever state its file is in. -/
theorem analyzeFiles_validateFile (tree : Files.Tree) (validator : Validator) (aggregate : Aggregate) (path : String) :
    let validated := validateFile tree validator path
    let analyzed := analyzeFiles tree aggregate [path]
    Agrees validated.value aggregate analyzed.value ∧ analyzed.problems = validated.problems := by
  have single : analyzeFiles tree aggregate [path] = analyzeFile tree aggregate path :=
    congrArg (Loaded.mk _) (List.append_nil _)
  intro validated analyzed
  simp only [analyzed, validated, single, analyzeFile, validateFile]
  cases openLog tree path with
  | ok chunks => exact agrees_analyze validator aggregate path chunks
  | error problem => exact ⟨⟨rfl, rfl, rfl⟩, rfl⟩

end Stream

end StateAudit
