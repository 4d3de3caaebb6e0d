import StateAudit.Proofs.RecordVerdict
import StateAudit.Proofs.StreamReadings

/-! A validation run as a list of judgements: every reading with the verdict it gets after the
state before it. The report is the sum of what the judgements add to it. -/

namespace StateAudit

attribute [ext] Report

instance : Append Report where
  append first second :=
    { total := first.total + second.total
      valid := first.valid + second.valid
      invalid := first.invalid + second.invalid
      errors := first.errors ++ second.errors
      warnings := first.warnings ++ second.warnings }

theorem Report.append_def (first second : Report) : first ++ second =
    { total := first.total + second.total
      valid := first.valid + second.valid
      invalid := first.invalid + second.invalid
      errors := first.errors ++ second.errors
      warnings := first.warnings ++ second.warnings } := rfl

theorem Report.append_assoc (first second third : Report) :
    first ++ second ++ third = first ++ (second ++ third) := by
  simp only [Report.append_def, Nat.add_assoc, Array.append_assoc]

theorem Report.append_empty (report : Report) : report ++ ({} : Report) = report := by
  simp only [Report.append_def, Nat.add_zero, Array.append_empty]

theorem Report.empty_append (report : Report) : ({} : Report) ++ report = report := by
  simp only [Report.append_def, Nat.zero_add, Array.empty_append]

/-- The report with every diagnostic changed alike. -/
def Report.map (change : Diagnostic → Diagnostic) (report : Report) : Report :=
  { report with errors := report.errors.map change, warnings := report.warnings.map change }

namespace Stream

/-- A line that holds no record has a fatal finding of its own. -/
def Reading.verdict (validator : Validator) (previous : Option String) (reading : Reading) : Verdict :=
  match reading.result with
  | .ok record => (validator.validate record previous).1
  | .error error => { fatal := some (.malformed error) }

def Reading.next (validator : Validator) (previous : Option String) (reading : Reading) : Option String :=
  match reading.result with
  | .ok record => (validator.validate record previous).2
  | .error _ => previous

def Reading.diagnose (reading : Reading) (finding : Finding) : Diagnostic :=
  { line := reading.line, reason := finding, offending := reading.result.toOption.map Record.raw }

def Reading.accepted? (validator : Validator) (reading : Reading) : Option Record :=
  reading.result.toOption.filter validator.accepts

def accepted (validator : Validator) (readings : List Reading) : List (Nat × Record) :=
  readings.filterMap fun reading => (reading.accepted? validator).map (reading.line, ·)

structure Judgement where
  reading : Reading
  verdict : Verdict

def Judgement.error? (judgement : Judgement) : Option Diagnostic :=
  judgement.verdict.fatal.map judgement.reading.diagnose

def Judgement.warnings (judgement : Judgement) : List Diagnostic :=
  judgement.verdict.warnings.map judgement.reading.diagnose

def judge (validator : Validator) (previous : Option String) : List Reading → List Judgement
  | [] => []
  | reading :: rest =>
    ⟨reading, reading.verdict validator previous⟩ :: judge validator (reading.next validator previous) rest

def stateAfter (validator : Validator) (previous : Option String) (readings : List Reading) : Option String :=
  readings.foldl (Reading.next validator) previous

def reportOf (judgements : List Judgement) : Report where
  total := judgements.length
  valid := judgements.countP (·.verdict.isValid)
  invalid := judgements.countP (!·.verdict.isValid)
  errors := (judgements.filterMap Judgement.error?).toArray
  warnings := (judgements.flatMap Judgement.warnings).toArray

def interruption (source : String) : List Entry → List LoadError
  | [] => []
  | .failed line fault :: _ => [.interrupted source line fault]
  | .record _ _ :: rest => interruption source rest
  | .malformed _ _ :: rest => interruption source rest

theorem isValid_verdict (validator : Validator) (previous : Option String) (reading : Reading) :
    (reading.verdict validator previous).isValid = (reading.accepted? validator).isSome := by
  obtain ⟨line, result⟩ := reading
  cases result with
  | error error => rfl
  | ok record =>
    simp only [Reading.verdict, Reading.accepted?, Except.toOption, Option.filter, Validator.isValid_validate]
    cases validator.accepts record <;> rfl

theorem next_eq (validator : Validator) (previous : Option String) (reading : Reading) :
    reading.next validator previous = ((reading.accepted? validator).map Record.derivedId).or previous := by
  obtain ⟨line, result⟩ := reading
  cases result with
  | error error => rfl
  | ok record =>
    simp only [Reading.next, Reading.accepted?, Except.toOption, Option.filter, Validator.next_validate]
    cases validator.accepts record <;> rfl

theorem accepted?_eq_some {validator : Validator} {reading : Reading} {record : Record} :
    reading.accepted? validator = some record ↔ reading.result = .ok record ∧ validator.accepts record = true := by
  rw [Reading.accepted?, Option.filter_eq_some_iff]
  cases reading.result with
  | error error => simp [Except.toOption]
  | ok other => simp [Except.toOption]

theorem accepted_cons (validator : Validator) (reading : Reading) (rest : List Reading) :
    accepted validator (reading :: rest) =
      ((reading.accepted? validator).map (reading.line, ·)).toList ++ accepted validator rest := by
  rw [accepted, List.filterMap_cons]
  cases reading.accepted? validator <;> rfl

theorem accepts_of_mem_accepted {validator : Validator} {readings : List Reading} {entry : Nat × Record}
    (member : entry ∈ accepted validator readings) : validator.accepts entry.2 = true := by
  simp only [accepted, List.mem_filterMap, Option.map_eq_some_iff] at member
  obtain ⟨reading, _, record, found, rfl⟩ := member
  exact (accepted?_eq_some.mp found).2

theorem reportOf_append (first second : List Judgement) :
    reportOf (first ++ second) = reportOf first ++ reportOf second := by
  simp only [reportOf, Report.append_def, List.length_append, List.countP_append, List.filterMap_append,
    List.flatMap_append, List.append_toArray]

theorem reportOf_cons (judgement : Judgement) (rest : List Judgement) :
    reportOf (judgement :: rest) = reportOf [judgement] ++ reportOf rest :=
  reportOf_append [judgement] rest

theorem total_reportOf (judgements : List Judgement) :
    (reportOf judgements).total = (reportOf judgements).valid + (reportOf judgements).invalid := by
  simpa [reportOf] using List.length_eq_countP_add_countP (l := judgements) (·.verdict.isValid)

/-- A change to judgements that their diagnostics show one by one is a change to the report. -/
theorem reportOf_map (alter : Judgement → Judgement) (change : Diagnostic → Diagnostic)
    (valid : ∀ judgement, (alter judgement).verdict.isValid = judgement.verdict.isValid)
    (errors : ∀ judgement, (alter judgement).error? = judgement.error?.map change)
    (warnings : ∀ judgement, (alter judgement).warnings = judgement.warnings.map change)
    (judgements : List Judgement) : reportOf (judgements.map alter) = (reportOf judgements).map change := by
  refine Report.ext ?_ ?_ ?_ ?_ ?_
  · exact List.length_map _
  · simp only [reportOf, List.countP_map, Function.comp_def, valid, Report.map]
  · simp only [reportOf, List.countP_map, Function.comp_def, valid, Report.map]
  · simp only [reportOf, Report.map, List.filterMap_map, Function.comp_def, errors, List.map_toArray, List.map_filterMap]
  · simp only [reportOf, Report.map, List.flatMap_map, warnings, List.map_toArray, List.map_flatMap]

theorem push_eq (report : Report) (line : Nat) (record : Record) (verdict : Verdict) :
    report.push line record verdict = report ++ reportOf [⟨⟨line, .ok record⟩, verdict⟩] := by
  obtain ⟨fatal, warnings⟩ := verdict
  have warned : report.warnings ++ warnings.map (Reading.diagnose ⟨line, .ok record⟩) =
      report.warnings ++ (warnings.map (Reading.diagnose ⟨line, .ok record⟩)).toArray := Array.ext' (by simp)
  cases fatal with
  | none =>
    refine Report.ext rfl rfl rfl ?_ ?_
    · simp [Report.push, reportOf, Report.append_def, Judgement.error?]
    · refine Eq.trans warned ?_
      simp [reportOf, Report.append_def, Judgement.warnings]
  | some finding =>
    refine Report.ext rfl rfl rfl ?_ ?_
    · simp [Report.push, reportOf, Report.append_def, Judgement.error?, Reading.diagnose, Except.toOption]
    · refine Eq.trans warned ?_
      simp [reportOf, Report.append_def, Judgement.warnings]

theorem pushMalformed_eq (report : Report) (line : Nat) (error : RecordError) :
    report.pushMalformed line error =
      report ++ reportOf [⟨⟨line, .error error⟩, { fatal := some (.malformed error) }⟩] := by
  simp [Report.pushMalformed, reportOf, Report.append_def, Judgement.warnings, Judgement.error?, Verdict.isValid,
    Reading.diagnose, Except.toOption]

/-- A run adds the judgements on its readings to the report it begins with. -/
theorem validateFrom_eq (validator : Validator) (source : String) (tracker : Tracker) (report : Report)
    (entries : List Entry) :
    validateFrom validator source tracker report entries =
      { value := report ++ reportOf (judge validator tracker.previous (readings entries))
        problems := interruption source entries } := by
  induction entries generalizing tracker report with
  | nil => exact congrArg (Loaded.mk · []) (Report.append_empty report).symm
  | cons entry rest ih =>
    cases entry with
    | failed line fault => exact congrArg (Loaded.mk · _) (Report.append_empty report).symm
    | record line record =>
      simp only [validateFrom, ih, interruption, readings, judge, Tracker.observe, push_eq, Report.append_assoc]
      rw [← reportOf_append]
      rfl
    | malformed line error =>
      simp only [validateFrom, ih, interruption, readings, judge, pushMalformed_eq, Report.append_assoc]
      rw [← reportOf_append]
      rfl

theorem validate_value (validator : Validator) (source : String) (chunks : List Chunk) :
    (validate validator source chunks).value = reportOf (judge validator none (readings (entries chunks))) := by
  rw [validate, validateFrom_eq]
  exact Report.empty_append _

theorem validate_bytes (validator : Validator) (source : String) (contents : List Bytes) :
    (validate validator source (contents.map .bytes)).value =
      reportOf (judge validator none (numbered 0 (contentLines contents.flatten))) := by
  rw [validate_value, readings_bytes]

theorem validate_lines (validator : Validator) (source : String) (chunks : List Chunk) :
    validate validator source chunks =
      { value := reportOf (judge validator none (numbered 0 (untilFailure (lines chunks))))
        problems := interruption source (entries chunks) } := by
  rw [← readings_entriesFrom, ← entries, ← validate_value validator source, validate, validateFrom_eq]

section Judge
variable (validator : Validator) (previous : Option String)

theorem judge_append (first second : List Reading) :
    judge validator previous (first ++ second) =
      judge validator previous first ++ judge validator (stateAfter validator previous first) second := by
  induction first generalizing previous with
  | nil => rfl
  | cons reading rest ih =>
    simp only [List.cons_append, judge, ih]
    rfl

/-- A change to readings that no verdict and no state depends on, up to how the verdict is put. -/
theorem judge_map (alter : Reading → Reading) (relabel : Verdict → Verdict)
    (verdict : ∀ state reading, (alter reading).verdict validator state = relabel (reading.verdict validator state))
    (next : ∀ state reading, (alter reading).next validator state = reading.next validator state)
    (readings : List Reading) : judge validator previous (readings.map alter) =
      (judge validator previous readings).map fun judgement => ⟨alter judgement.reading, relabel judgement.verdict⟩ := by
  induction readings generalizing previous with
  | nil => rfl
  | cons reading rest ih => rw [List.map_cons, judge, judge, List.map_cons, verdict, next, ih]

/-- Of a validator a run uses nothing but its verdicts and the states that follow them. -/
theorem judge_congr {other : Validator}
    (same : ∀ record state, validator.validate record state = other.validate record state)
    (readings : List Reading) : judge validator previous readings = judge other previous readings := by
  induction readings generalizing previous with
  | nil => rfl
  | cons reading rest ih =>
    obtain ⟨line, result⟩ := reading
    rw [judge, judge, ih]
    cases result with
    | error error => rfl
    | ok record => simp only [Reading.verdict, Reading.next, same]

theorem map_reading_judge (readings : List Reading) :
    (judge validator previous readings).map Judgement.reading = readings := by
  induction readings generalizing previous with
  | nil => rfl
  | cons reading rest ih => simp only [judge, List.map_cons, ih]

theorem length_judge (readings : List Reading) : (judge validator previous readings).length = readings.length := by
  rw [← List.length_map Judgement.reading, map_reading_judge]

theorem mem_judge {readings : List Reading} {judgement : Judgement}
    (member : judgement ∈ judge validator previous readings) :
    judgement.reading ∈ readings ∧ ∃ state, judgement.verdict = judgement.reading.verdict validator state := by
  induction readings generalizing previous with
  | nil => cases member
  | cons reading rest ih =>
    rcases List.mem_cons.mp member with rfl | later
    · exact ⟨List.mem_cons_self, previous, rfl⟩
    · obtain ⟨inside, found⟩ := ih _ later
      exact ⟨List.mem_cons_of_mem _ inside, found⟩

theorem judge_mem {readings : List Reading} {reading : Reading} (member : reading ∈ readings) :
    ∃ state, ⟨reading, reading.verdict validator state⟩ ∈ judge validator previous readings := by
  induction readings generalizing previous with
  | nil => cases member
  | cons other rest ih =>
    rcases List.mem_cons.mp member with rfl | later
    · exact ⟨previous, List.mem_cons_self⟩
    · obtain ⟨state, inside⟩ := ih (other.next validator previous) later
      exact ⟨state, List.mem_cons_of_mem _ inside⟩

theorem valid_reportOf (readings : List Reading) :
    (reportOf (judge validator previous readings)).valid = (accepted validator readings).length := by
  simp only [reportOf]
  induction readings generalizing previous with
  | nil => rfl
  | cons reading rest ih =>
    rw [judge, List.countP_cons, ih, accepted_cons, isValid_verdict]
    cases reading.accepted? validator with
    | none => rfl
    | some record => simp [Nat.add_comm]

end Judge

theorem validate_congr {validator other : Validator}
    (same : ∀ record state, validator.validate record state = other.validate record state) (source : String)
    (chunks : List Chunk) : validate validator source chunks = validate other source chunks := by
  rw [validate_lines, validate_lines, judge_congr validator none same]

theorem accepted_increasing (validator : Validator) (number : Nat) (lines : List Bytes) :
    ((accepted validator (numbered number lines)).map Prod.fst).Pairwise (· < ·) := by
  refine List.pairwise_map.mpr ((List.pairwise_map.mp (numbered_increasing number lines)).filterMap _ ?_)
  intro first second before entry found other next
  obtain ⟨_, _, rfl⟩ := Option.map_eq_some_iff.mp found
  obtain ⟨_, _, rfl⟩ := Option.map_eq_some_iff.mp next
  exact before

end Stream

end StateAudit
