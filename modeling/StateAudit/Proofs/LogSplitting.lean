import StateAudit.Proofs.ReportTransitions

/-! A log cut behind one of its lines. The second part begins without the state that the first
one ended in, so its report may lack one transition warning, at its first valid record, and has
its own line numbers. Nothing else is lost. -/

namespace StateAudit

def Diagnostic.shift (count : Nat) (diagnostic : Diagnostic) : Diagnostic :=
  { diagnostic with line := count + diagnostic.line }

def Report.shift (count : Nat) (report : Report) : Report :=
  { report with
    errors := report.errors.map (Diagnostic.shift count)
    warnings := report.warnings.map (Diagnostic.shift count) }

namespace Stream

def Judgement.shift (count : Nat) (judgement : Judgement) : Judgement :=
  { judgement with reading := judgement.reading.shift count }

/-- The transition warning at the first valid record, after a state before. -/
def arrival (validator : Validator) (previous : Option String) : List (Nat × Record) → List Diagnostic
  | [] => []
  | (line, record) :: _ =>
    (validator.transitionWarnings previous record.derivedId).map (Reading.diagnose ⟨line, .ok record⟩)

/-- The transition warning between the last valid record of a log and the first one of the next. -/
def seam (validator : Validator) (before after : List (Nat × Record)) : List Diagnostic :=
  match before.getLast?, after.head? with
  | some last, some next => crossing validator.rules.allows last next
  | _, _ => []

/-- The report on contents of which no read fails. -/
def reportOn (validator : Validator) (source : String) (contents : List Bytes) : Report :=
  (validate validator source (contents.map .bytes)).value

def acceptedOf (validator : Validator) (contents : List Bytes) : List (Nat × Record) :=
  accepted validator (readings (entries (contents.map .bytes)))

theorem judge_shift (validator : Validator) (count : Nat) (previous : Option String) (readings : List Reading) :
    judge validator previous (readings.map (Reading.shift count)) =
      (judge validator previous readings).map (Judgement.shift count) :=
  judge_map validator previous (Reading.shift count) id (fun _ _ => rfl) (fun _ _ => rfl) readings

theorem reportOf_shift (count : Nat) (judgements : List Judgement) :
    reportOf (judgements.map (Judgement.shift count)) = (reportOf judgements).shift count := by
  refine reportOf_map (Judgement.shift count) (Diagnostic.shift count) (fun _ => rfl) ?_ ?_ judgements
  · intro judgement
    rw [Judgement.error?, Judgement.error?, Option.map_map]
    rfl
  · intro judgement
    rw [Judgement.warnings, Judgement.warnings, List.map_map]
    rfl

section Verdicts
variable {validator : Validator} (previous : Option String)

theorem verdict_rejected {reading : Reading} (rejected : reading.accepted? validator = none) :
    reading.verdict validator previous = reading.verdict validator none := by
  obtain ⟨line, result⟩ := reading
  cases result with
  | error error => rfl
  | ok record =>
    simp only [Reading.verdict, Validator.validate_eq]
    cases found : validator.fatal? record with
    | some finding => rfl
    | none =>
      have valid : validator.accepts record = true := by rw [Validator.accepts_eq, found]; rfl
      rw [accepted?_eq_some.mpr ⟨rfl, valid⟩] at rejected
      cases rejected

theorem verdict_accepted {reading : Reading} {record : Record}
    (valid : reading.accepted? validator = some record) : reading.verdict validator previous =
      { warnings := validator.mismatch record ++ validator.transitionWarnings previous record.derivedId } := by
  obtain ⟨read, accepts⟩ := accepted?_eq_some.mp valid
  rw [Validator.accepts_eq, Option.isNone_iff_eq_none] at accepts
  simp only [Reading.verdict, read, Validator.validate_eq, accepts]

theorem judge_rejected {readings : List Reading}
    (rejected : ∀ reading ∈ readings, reading.accepted? validator = none) :
    judge validator previous readings = judge validator none readings ∧
      stateAfter validator previous readings = previous := by
  induction readings with
  | nil => exact ⟨rfl, rfl⟩
  | cons reading rest ih =>
    have own := rejected reading List.mem_cons_self
    have kept : ∀ state, reading.next validator state = state := by
      intro state
      rw [next_eq, own]
      rfl
    obtain ⟨same, last⟩ := ih fun other member => rejected other (List.mem_cons_of_mem _ member)
    constructor
    · rw [judge, judge, verdict_rejected previous own, kept, kept, same]
    · rw [stateAfter, List.foldl_cons, kept]
      exact last

end Verdicts

theorem stateAfter_eq (validator : Validator) (previous : Option String) (readings : List Reading) :
    stateAfter validator previous readings =
      (((accepted validator readings).getLast?).map (·.2.derivedId)).or previous := by
  induction readings generalizing previous with
  | nil => rfl
  | cons reading rest ih =>
    have step : stateAfter validator previous (reading :: rest) =
        stateAfter validator (reading.next validator previous) rest := rfl
    rw [step, ih, next_eq, accepted_cons]
    cases reading.accepted? validator with
    | none => rfl
    | some record =>
      cases found : (accepted validator rest).getLast? with
      | none =>
        rw [List.getLast?_eq_none_iff] at found
        rw [found]
        rfl
      | some last =>
        rw [List.getLast?_append, found]
        rfl

theorem accepted_split {validator : Validator} {readings : List Reading} {next : Nat × Record}
    {later : List (Nat × Record)} (found : accepted validator readings = next :: later) :
    ∃ quiet rest, readings = quiet ++ ⟨next.1, .ok next.2⟩ :: rest ∧
      (∀ reading ∈ quiet, reading.accepted? validator = none) ∧ validator.accepts next.2 = true := by
  obtain ⟨quiet, reading, rest, rfl, rejected, first, _⟩ := List.filterMap_eq_cons_iff.mp found
  obtain ⟨record, valid, rfl⟩ := Option.map_eq_some_iff.mp first
  obtain ⟨read, accepts⟩ := accepted?_eq_some.mp valid
  refine ⟨quiet, rest, ?_, ?_, accepts⟩
  · obtain ⟨line, result⟩ := reading
    obtain rfl : result = .ok record := read
    rfl
  · intro other member
    exact Option.map_eq_none_iff.mp (rejected other member)

theorem line_of_mem_warnings (validator : Validator) (previous : Option String) (readings : List Reading)
    {warning : Diagnostic} (member : warning ∈ (judge validator previous readings).flatMap Judgement.warnings) :
    ∃ reading ∈ readings, warning.line = reading.line := by
  obtain ⟨judgement, inside, raised⟩ := List.mem_flatMap.mp member
  obtain ⟨finding, _, rfl⟩ := List.mem_map.mp raised
  exact ⟨judgement.reading, (mem_judge validator previous inside).1, rfl⟩

theorem warnings_around (validator : Validator) {quiet rest : List Reading} {reading : Reading}
    (increasing : ((quiet ++ reading :: rest).map Reading.line).Pairwise (· < ·)) (before after : Option String) :
    (∀ warning ∈ (judge validator before quiet).flatMap Judgement.warnings, warning.line < reading.line) ∧
      ∀ warning ∈ (judge validator after rest).flatMap Judgement.warnings, reading.line < warning.line := by
  rw [List.map_append, List.map_cons, List.pairwise_append, List.pairwise_cons] at increasing
  obtain ⟨_, ⟨behind, _⟩, ahead⟩ := increasing
  constructor
  · intro warning member
    obtain ⟨other, inside, place⟩ := line_of_mem_warnings validator before quiet member
    rw [place]
    exact ahead _ (List.mem_map_of_mem inside) _ List.mem_cons_self
  · intro warning member
    obtain ⟨other, inside, place⟩ := line_of_mem_warnings validator after rest member
    rw [place]
    exact behind _ (List.mem_map_of_mem inside)

theorem reportOf_warned (first second : List Judgement) (reading : Reading) (warnings : List Finding) :
    reportOf (first ++ ⟨reading, { warnings }⟩ :: second) =
      { reportOf (first ++ ⟨reading, {}⟩ :: second) with
        warnings := (first.flatMap Judgement.warnings ++ warnings.map reading.diagnose ++
          second.flatMap Judgement.warnings).toArray } := by
  refine Report.ext ?_ ?_ ?_ ?_ ?_
  · simp only [reportOf, List.length_append, List.length_cons]
  · simp only [reportOf, List.countP_append, List.countP_cons, Verdict.isValid]
  · simp only [reportOf, List.countP_append, List.countP_cons, Verdict.isValid]
  · simp only [reportOf, List.filterMap_append, List.filterMap_cons, Judgement.error?, Option.map_none]
  · simp only [reportOf, List.flatMap_append, List.flatMap_cons, Judgement.warnings, List.append_assoc]

/-- A valid reading replaces the state, so the readings behind the first one are judged alike after
every state. -/
theorem reportOf_first {validator : Validator} {quiet : List Reading} {line : Nat} {record : Record}
    (rejected : ∀ reading ∈ quiet, reading.accepted? validator = none)
    (valid : Reading.accepted? validator ⟨line, .ok record⟩ = some record) (rest : List Reading)
    (state : Option String) :
    reportOf (judge validator state (quiet ++ ⟨line, .ok record⟩ :: rest)) =
      reportOf (judge validator none quiet ++
        ⟨⟨line, .ok record⟩,
          { warnings := validator.mismatch record ++ validator.transitionWarnings state record.derivedId }⟩ ::
          judge validator (some record.derivedId) rest) := by
  obtain ⟨same, last⟩ := judge_rejected state rejected
  rw [judge_append, same, last, judge, verdict_accepted state valid, next_eq, valid]
  rfl

/-- What a state before readings adds to the report on them: the warning at the first valid one,
behind the warnings up to its line. -/
theorem reportOf_after (validator : Validator) (previous : Option String) {readings : List Reading}
    (increasing : (readings.map Reading.line).Pairwise (· < ·)) :
    ∃ before after : Array Diagnostic,
      (reportOf (judge validator none readings)).warnings = before ++ after ∧
      reportOf (judge validator previous readings) =
        { reportOf (judge validator none readings) with
          warnings := before ++ (arrival validator previous (accepted validator readings)).toArray ++ after } ∧
      ∀ next, (accepted validator readings).head? = some next →
        (∀ warning ∈ before, warning.line ≤ next.1) ∧ ∀ warning ∈ after, next.1 < warning.line := by
  cases found : accepted validator readings with
  | nil =>
    have rejected : ∀ reading ∈ readings, reading.accepted? validator = none := by
      intro reading member
      exact Option.map_eq_none_iff.mp (List.filterMap_eq_nil_iff.mp found reading member)
    refine ⟨(reportOf (judge validator none readings)).warnings, #[], by simp, ?_, by simp⟩
    rw [(judge_rejected previous rejected).1]
    simp [arrival]
  | cons next later =>
    obtain ⟨quiet, rest, rfl, rejected, accepts⟩ := accepted_split found
    obtain ⟨line, record⟩ := next
    have valid : Reading.accepted? validator ⟨line, .ok record⟩ = some record := accepted?_eq_some.mpr ⟨rfl, accepts⟩
    simp only [reportOf_first rejected valid rest, reportOf_warned _ _ _ (validator.mismatch record ++ _)]
    refine ⟨((judge validator none quiet).flatMap Judgement.warnings ++
        (validator.mismatch record).map (Reading.diagnose ⟨line, .ok record⟩)).toArray,
      ((judge validator (some record.derivedId) rest).flatMap Judgement.warnings).toArray, ?_, ?_, ?_⟩
    · simp only [Validator.transitionWarnings, List.append_nil, List.append_toArray]
    · simp only [arrival, List.map_append, List.append_assoc, List.append_toArray]
    · intro entry first
      obtain rfl : (line, record) = entry := Option.some.inj first
      obtain ⟨ahead, behind⟩ := warnings_around validator increasing none (some record.derivedId)
      refine ⟨?_, fun warning member => behind warning (List.mem_toArray.mp member)⟩
      intro warning member
      rcases List.mem_append.mp (List.mem_toArray.mp member) with early | own
      · exact Nat.le_of_lt (ahead warning early)
      · obtain ⟨finding, _, rfl⟩ := List.mem_map.mp own
        exact Nat.le_refl line

theorem arrival_eq_seam (validator : Validator) (first second : List Reading) :
    arrival validator (stateAfter validator none first) (accepted validator second) =
      seam validator (accepted validator first) (accepted validator second) := by
  rw [stateAfter_eq, Option.or_none, seam]
  cases before : (accepted validator first).getLast? with
  | none =>
    cases accepted validator second <;> rfl
  | some last =>
    cases after : accepted validator second with
    | nil => rfl
    | cons next later =>
      have reached : validator.accepts last.2 = true := accepts_of_mem_accepted (List.mem_of_getLast? before)
      have entered : validator.accepts next.2 = true := accepts_of_mem_accepted (after ▸ List.mem_cons_self)
      simp only [arrival, Option.map_some, Validator.transitionWarnings_accepted validator reached entered,
        List.head?_cons, crossing]
      split <;> rfl

theorem seam_acceptAll {validator : Validator} (all : validator.rules = .acceptAll)
    (before after : List (Nat × Record)) : seam validator before after = [] := by
  rw [seam, all]
  split <;> rfl

/-- The report on a log is the sum of the reports on two parts of it, the second one with its
lines counted on, and with the transition warning between the parts where it belongs. -/
theorem validate_split (validator : Validator) (source : String) {whole first second lines : List Bytes}
    (joins : whole.flatten = first.flatten ++ second.flatten) (ended : Whole first.flatten)
    (cut : Delimited first.flatten lines) :
    (∃ before after : Array Diagnostic,
      (reportOn validator source second).warnings = before ++ after ∧
      reportOn validator source whole = reportOn validator source first ++ Report.shift lines.length
        { reportOn validator source second with
          warnings := before ++
            (seam validator (acceptedOf validator first) (acceptedOf validator second)).toArray ++ after } ∧
      ∀ next, (acceptedOf validator second).head? = some next →
        (∀ warning ∈ before, warning.line ≤ next.1) ∧ ∀ warning ∈ after, next.1 < warning.line) ∧
    (validator.rules = .acceptAll → reportOn validator source whole =
      reportOn validator source first ++ (reportOn validator source second).shift lines.length) := by
  have counted : lines = contentLines first.flatten := cut.unique (contentLines_delimited _)
  have reported : ∀ contents : List Bytes,
      reportOf (judge validator none (numbered 0 (contentLines contents.flatten))) =
        reportOn validator source contents :=
    fun contents => (validate_bytes validator source contents).symm
  have split : reportOn validator source whole = reportOn validator source first ++ Report.shift lines.length
      (reportOf (judge validator (stateAfter validator none (numbered 0 (contentLines first.flatten)))
        (numbered 0 (contentLines second.flatten)))) := by
    rw [← reported whole, joins, contentLines_append _ ended, numbered_append, Nat.zero_add,
      ← Nat.add_zero (List.length _), numbered_add, judge_append, reportOf_append, judge_shift, reportOf_shift,
      reported first, counted]
  have valid : ∀ contents, acceptedOf validator contents =
      accepted validator (numbered 0 (contentLines contents.flatten)) := by
    intro contents
    rw [acceptedOf, readings_bytes]
  obtain ⟨before, after, warnings, report, placed⟩ := reportOf_after validator
    (stateAfter validator none (numbered 0 (contentLines first.flatten)))
    (numbered_increasing 0 (contentLines second.flatten))
  rw [arrival_eq_seam, ← valid first, ← valid second, reported second] at report
  rw [reported second] at warnings
  rw [← valid second] at placed
  refine ⟨⟨before, after, warnings, by rw [split, report], placed⟩, ?_⟩
  intro all
  rw [split, report, seam_acceptAll all, Array.append_empty, ← warnings]

def single : Validator where
  vocabulary := .ofStates [.ofPair "read" "fs"]
  rules := .only []

def singleEntry : Bytes :=
  Utf8.encode "\x7b\"primitive\":\"read\",\"context\":\"fs\",\"state_id\":\"PRIM_read_CTX_fs\"\x7d\n".toList

theorem validate_repeated :
    (reportOn single "log" [singleEntry]).warnings.size = 0 ∧
      (reportOn single "log" [singleEntry ++ singleEntry]).warnings.size = 1 := by
  have ended : Whole [singleEntry].flatten := .inr (by decide +kernel)
  have cut : Delimited [singleEntry].flatten [singleEntry] := by
    have one : contentLines [singleEntry].flatten = [singleEntry] := by decide +kernel
    have cut := contentLines_delimited [singleEntry].flatten
    rwa [one] at cut
  have quiet : (reportOn single "log" [singleEntry]).warnings.size = 0 := by decide +kernel
  have missed : (seam single (acceptedOf single [singleEntry]) (acceptedOf single [singleEntry])).length = 1 := by
    decide +kernel
  have joins : [singleEntry ++ singleEntry].flatten = [singleEntry].flatten ++ [singleEntry].flatten := by simp
  obtain ⟨⟨before, after, warnings, report, _⟩, _⟩ := validate_split single "log" joins ended cut
  rw [warnings, Array.size_append] at quiet
  refine ⟨by rw [warnings, Array.size_append, quiet], ?_⟩
  rw [report, Report.append_def, Report.shift, warnings]
  simp only [Array.size_append, Array.size_map, List.size_toArray, missed]
  omega

end Stream

end StateAudit
