import StateAudit.Proofs.ReportRun

/-! A report accounts for every line of its stream: totals, both lists and the numbers of the
lines agree with what each line holds, whatever kinds of lines follow one another. -/

namespace StateAudit.Stream

/-- A line that holds no record, or one with a fatal finding after any state. -/
def Rejected (validator : Validator) (content : Bytes) : Prop :=
  (∃ error, readLine? content = some (.error error)) ∨
    ∃ record, readLine? content = some (.ok record) ∧
      ∀ previous, (validator.validate record previous).1.isValid = false

/-- A diagnostic at its line. It shows the JSON object of that very line, unless the line could
not be read as a record. -/
def Located (lines : List Bytes) (diagnostic : Diagnostic) : Prop :=
  ∃ index content, lines[index]? = some content ∧ diagnostic.line = index + 1 ∧
    ((∃ error, diagnostic.reason = .malformed error ∧ readLine? content = some (.error error) ∧
        diagnostic.offending = none) ∨
      (∀ error, diagnostic.reason ≠ .malformed error) ∧
        ∃ text members, Utf8.encode text = content ∧ Json.parse text = .ok (.object members) ∧
          diagnostic.offending = some (.object members))

structure Accounts (validator : Validator) (lines : List Bytes) (report : Report) : Prop where
  total : report.total = lines.countP (HoldsEntry ·)
  sum : report.total = report.valid + report.invalid
  size : report.errors.size = report.invalid
  increasing : (report.errors.toList.map Diagnostic.line).Pairwise (· < ·)
  rejected : ∀ number, (∃ error ∈ report.errors, error.line = number) ↔
    ∃ index content, lines[index]? = some content ∧ number = index + 1 ∧ Rejected validator content
  ordered : (report.warnings.toList.map Diagnostic.line).Pairwise (· ≤ ·)
  paired : ∀ number, ∃ logged expected origin target cause,
    ((report.warnings.toList.filter (·.line == number)).map Diagnostic.reason).Sublist
      [.stateIdMismatch logged expected, .invalidTransition origin target cause]
  shared : ∀ error ∈ report.errors, ∀ warning ∈ report.warnings, error.line = warning.line →
    ∃ logged stateId, error.reason = .invalidState stateId ∧ warning.reason = .stateIdMismatch logged stateId ∧
      report.warnings.toList.filter (·.line == error.line) = [warning]
  failures : ∀ error ∈ report.errors, error.reason.severity = .failure
  doubts : ∀ warning ∈ report.warnings, warning.reason.severity = .warning
  located : ∀ diagnostic, diagnostic ∈ report.errors ∨ diagnostic ∈ report.warnings → Located lines diagnostic

section Verdict
variable (validator : Validator) (previous : Option String) (reading : Reading)

private theorem verdict_sublist :
    ∃ logged expected origin target cause, (reading.verdict validator previous).warnings.Sublist
      [.stateIdMismatch logged expected, .invalidTransition origin target cause] := by
  obtain ⟨line, result⟩ := reading
  cases result with
  | error error => exact ⟨"", "", "", "", .notAllowed, List.nil_sublist _⟩
  | ok record =>
    obtain ⟨logged, origin, cause, pair⟩ := Validator.warnings_sublist validator record previous
    exact ⟨logged, _, origin, _, cause, pair⟩

private theorem verdict_severity {finding : Finding}
    (member : finding ∈ (reading.verdict validator previous).warnings) : finding.severity = .warning := by
  obtain ⟨logged, expected, origin, target, cause, pair⟩ := verdict_sublist validator previous reading
  have kind := pair.subset member
  simp only [List.mem_cons, List.not_mem_nil, or_false] at kind
  rcases kind with rfl | rfl <;> rfl

private theorem fatal_severity {finding : Finding} (fatal : (reading.verdict validator previous).fatal = some finding) :
    finding.severity = .failure := by
  obtain ⟨line, result⟩ := reading
  cases result with
  | error error => cases fatal; rfl
  | ok record =>
    simp only [Reading.verdict, Validator.fatal_validate] at fatal
    exact (Validator.fatal_cases validator record fatal).1

private theorem fatal_with_warning {finding : Finding}
    (fatal : (reading.verdict validator previous).fatal = some finding)
    (warned : (reading.verdict validator previous).warnings ≠ []) :
    ∃ logged stateId, finding = .invalidState stateId ∧
      (reading.verdict validator previous).warnings = [.stateIdMismatch logged stateId] := by
  obtain ⟨line, result⟩ := reading
  cases result with
  | error error => exact absurd rfl warned
  | ok record =>
    obtain ⟨unknown, logged, alone⟩ := Validator.rejected_with_warning validator record previous fatal warned
    exact ⟨logged, _, unknown, alone⟩

private theorem malformed_iff {finding : Finding}
    (raised : (reading.verdict validator previous).fatal = some finding ∨
      finding ∈ (reading.verdict validator previous).warnings) :
    (∃ error, reading.result = .error error ∧ finding = .malformed error) ∨
      (∃ record, reading.result = .ok record) ∧ ∀ error, finding ≠ .malformed error := by
  have quiet : finding ∈ (reading.verdict validator previous).warnings → finding.severity = .warning :=
    verdict_severity validator previous reading
  obtain ⟨line, result⟩ := reading
  cases result with
  | error error =>
    rcases raised with fatal | warned
    · cases fatal
      exact .inl ⟨error, rfl, rfl⟩
    · cases warned
  | ok record =>
    refine .inr ⟨⟨record, rfl⟩, ?_⟩
    rcases raised with fatal | warned
    · simp only [Reading.verdict, Validator.fatal_validate] at fatal
      exact (Validator.fatal_cases validator record fatal).2.1
    · rintro error rfl
      cases quiet warned

end Verdict

structure Judged (validator : Validator) (lines : List Bytes) (judgements : List Judgement) : Prop where
  increasing : (judgements.map (·.reading.line)).Pairwise (· < ·)
  verdicts : ∀ judgement ∈ judgements, judgement.reading ∈ numbered 0 lines ∧
    ∃ state, judgement.verdict = judgement.reading.verdict validator state
  complete : ∀ reading ∈ numbered 0 lines, ∃ state, ⟨reading, reading.verdict validator state⟩ ∈ judgements

theorem judged (validator : Validator) (previous : Option String) (lines : List Bytes) :
    Judged validator lines (judge validator previous (numbered 0 lines)) where
  increasing := by
    have lines := numbered_increasing 0 lines
    rwa [← map_reading_judge validator previous (numbered 0 _), List.map_map] at lines
  verdicts _ member := mem_judge validator previous member
  complete _ member := judge_mem validator previous member

namespace Judged
variable {validator : Validator} {lines : List Bytes} {judgements : List Judgement}

private theorem mem_errors {error : Diagnostic} : error ∈ (reportOf judgements).errors ↔
    ∃ judgement ∈ judgements, ∃ finding, judgement.verdict.fatal = some finding ∧
      judgement.reading.diagnose finding = error := by
  simp only [reportOf, List.mem_toArray, List.mem_filterMap, Judgement.error?, Option.map_eq_some_iff]

private theorem mem_warnings {warning : Diagnostic} : warning ∈ (reportOf judgements).warnings ↔
    ∃ judgement ∈ judgements, ∃ finding ∈ judgement.verdict.warnings,
      judgement.reading.diagnose finding = warning := by
  simp only [reportOf, List.mem_toArray, List.mem_flatMap, Judgement.warnings, List.mem_map]

private theorem filter_warnings (judged : Judged validator lines judgements) {judgement : Judgement}
    (member : judgement ∈ judgements) :
    (reportOf judgements).warnings.toList.filter (·.line == judgement.reading.line) = judgement.warnings := by
  have elsewhere : ∀ others : List Judgement, (∀ other ∈ others, other.reading.line ≠ judgement.reading.line) →
      (others.flatMap Judgement.warnings).filter (·.line == judgement.reading.line) = [] := by
    intro others distinct
    simp only [List.filter_eq_nil_iff, List.mem_flatMap, Judgement.warnings, List.mem_map]
    rintro warning ⟨other, inside, finding, _, rfl⟩
    simpa [Reading.diagnose] using distinct other inside
  have own : judgement.warnings.filter (·.line == judgement.reading.line) = judgement.warnings := by
    simp [List.filter_eq_self, Judgement.warnings, Reading.diagnose]
  have increasing := judged.increasing
  -- Lines increase, so no judgement before or after this one is at its line.
  obtain ⟨before, after, rfl⟩ := List.append_of_mem member
  simp only [List.map_append, List.map_cons, List.pairwise_append, List.pairwise_cons, List.mem_map,
    List.mem_cons] at increasing
  obtain ⟨_, ⟨later, _⟩, earlier⟩ := increasing
  simp only [reportOf, List.flatMap_append, List.flatMap_cons, List.filter_append, own]
  rw [elsewhere before, elsewhere after, List.nil_append, List.append_nil]
  · intro other inside
    exact Nat.ne_of_gt (later _ ⟨other, inside, rfl⟩)
  · intro other inside
    exact Nat.ne_of_lt (earlier _ ⟨other, inside, rfl⟩ _ (.inl rfl))

private theorem errors_increasing (judged : Judged validator lines judgements) :
    ((reportOf judgements).errors.toList.map Diagnostic.line).Pairwise (· < ·) := by
  refine List.pairwise_map.mpr ((List.pairwise_map.mp judged.increasing).filterMap Judgement.error? ?_)
  intro first second before error found other next
  obtain ⟨_, _, rfl⟩ := Option.map_eq_some_iff.mp found
  obtain ⟨_, _, rfl⟩ := Option.map_eq_some_iff.mp next
  exact before

private theorem warnings_ordered (judged : Judged validator lines judgements) :
    ((reportOf judgements).warnings.toList.map Diagnostic.line).Pairwise (· ≤ ·) := by
  refine List.pairwise_map.mpr (List.pairwise_flatMap.mpr ⟨?_, ?_⟩)
  · intro judgement _
    exact List.pairwise_map.mpr (List.pairwise_of_forall fun _ _ => Nat.le_refl _)
  · refine (List.pairwise_map.mp judged.increasing).imp ?_
    intro first second before warning raised other next
    obtain ⟨_, _, rfl⟩ := List.mem_map.mp raised
    obtain ⟨_, _, rfl⟩ := List.mem_map.mp next
    exact Nat.le_of_lt before

private theorem rejected_iff (judged : Judged validator lines judgements) (number : Nat) :
    (∃ error ∈ (reportOf judgements).errors, error.line = number) ↔
      ∃ index content, lines[index]? = some content ∧ number = index + 1 ∧ Rejected validator content := by
  constructor
  · rintro ⟨error, member, rfl⟩
    obtain ⟨judgement, inside, finding, fatal, rfl⟩ := mem_errors.mp member
    obtain ⟨origin, state, verdict⟩ := judged.verdicts judgement inside
    obtain ⟨index, content, found, place, read⟩ := mem_numbered.mp origin
    refine ⟨index, content, found, by simpa [Reading.diagnose] using place, ?_⟩
    cases result : judgement.reading.result with
    | error error => exact .inl ⟨error, result ▸ read⟩
    | ok record =>
      refine .inr ⟨record, result ▸ read, fun previous => ?_⟩
      rw [verdict, Reading.verdict, result, Validator.fatal_validate] at fatal
      rw [Validator.isValid_validate, Validator.accepts_eq, fatal, Option.isNone_some]
  · rintro ⟨index, content, found, rfl, rejected⟩
    obtain ⟨result, read, fatal⟩ : ∃ result, readLine? content = some result ∧
        ∀ state, ((Reading.mk (index + 1) result).verdict validator state).isValid = false := by
      rcases rejected with ⟨error, read⟩ | ⟨record, read, invalid⟩
      · exact ⟨_, read, fun _ => rfl⟩
      · exact ⟨_, read, invalid⟩
    have origin : ⟨index + 1, result⟩ ∈ numbered 0 lines :=
      mem_numbered.mpr ⟨index, content, found, by simp, read⟩
    obtain ⟨state, inside⟩ := judged.complete _ origin
    obtain ⟨finding, raised⟩ := Option.isSome_iff_exists.mp (Option.isNone_eq_false_iff.mp (fatal state))
    exact ⟨_, mem_errors.mpr ⟨_, inside, finding, raised, rfl⟩, rfl⟩

private theorem warnings_paired (judged : Judged validator lines judgements) (number : Nat) :
    ∃ logged expected origin target cause,
      (((reportOf judgements).warnings.toList.filter (·.line == number)).map Diagnostic.reason).Sublist
        [.stateIdMismatch logged expected, .invalidTransition origin target cause] := by
  by_cases here : ∃ judgement ∈ judgements, judgement.reading.line = number
  · obtain ⟨judgement, inside, rfl⟩ := here
    obtain ⟨_, state, verdict⟩ := judged.verdicts judgement inside
    have reasons : judgement.warnings.map Diagnostic.reason = judgement.verdict.warnings := by
      simp [Judgement.warnings, Reading.diagnose, Function.comp_def]
    rw [judged.filter_warnings inside, reasons, verdict]
    exact verdict_sublist validator state judgement.reading
  · have quiet : (reportOf judgements).warnings.toList.filter (·.line == number) = [] := by
      refine List.filter_eq_nil_iff.mpr fun warning member => ?_
      obtain ⟨judgement, inside, _, _, rfl⟩ := mem_warnings.mp (Array.mem_toList_iff.mp member)
      simpa [Reading.diagnose] using fun line => here ⟨judgement, inside, line⟩
    rw [quiet]
    exact ⟨"", "", "", "", .notAllowed, List.nil_sublist _⟩

private theorem warning_at_error (judged : Judged validator lines judgements) {error warning : Diagnostic}
    (failed : error ∈ (reportOf judgements).errors) (raised : warning ∈ (reportOf judgements).warnings)
    (line : error.line = warning.line) :
    ∃ logged stateId, error.reason = .invalidState stateId ∧ warning.reason = .stateIdMismatch logged stateId ∧
      (reportOf judgements).warnings.toList.filter (·.line == error.line) = [warning] := by
  obtain ⟨judgement, inside, finding, fatal, rfl⟩ := mem_errors.mp failed
  obtain ⟨_, state, verdict⟩ := judged.verdicts judgement inside
  have filtered := judged.filter_warnings inside
  have own : warning ∈ judgement.warnings := by
    rw [← filtered, List.mem_filter]
    exact ⟨Array.mem_toList_iff.mpr raised, by simpa [Reading.diagnose] using line.symm⟩
  have warned : judgement.verdict.warnings ≠ [] := by
    intro none
    rw [Judgement.warnings, none] at own
    cases own
  obtain ⟨logged, stateId, unknown, alone⟩ :=
    fatal_with_warning validator state judgement.reading (verdict ▸ fatal) (verdict ▸ warned)
  have single : judgement.warnings = [judgement.reading.diagnose (.stateIdMismatch logged stateId)] := by
    rw [Judgement.warnings, verdict, alone, List.map_singleton]
  rw [single, List.mem_singleton] at own
  subst own
  exact ⟨logged, stateId, unknown, rfl, filtered.trans single⟩

theorem located (judged : Judged validator lines judgements) {diagnostic : Diagnostic}
    (member : diagnostic ∈ (reportOf judgements).errors ∨ diagnostic ∈ (reportOf judgements).warnings) :
    Located lines diagnostic := by
  obtain ⟨judgement, inside, finding, raised, rfl⟩ : ∃ judgement ∈ judgements, ∃ finding,
      (judgement.verdict.fatal = some finding ∨ finding ∈ judgement.verdict.warnings) ∧
        judgement.reading.diagnose finding = diagnostic := by
    rcases member with failed | warned
    · obtain ⟨judgement, inside, finding, fatal, rfl⟩ := mem_errors.mp failed
      exact ⟨judgement, inside, finding, .inl fatal, rfl⟩
    · obtain ⟨judgement, inside, finding, raised, rfl⟩ := mem_warnings.mp warned
      exact ⟨judgement, inside, finding, .inr raised, rfl⟩
  obtain ⟨origin, state, verdict⟩ := judged.verdicts judgement inside
  obtain ⟨index, content, found, place, read⟩ := mem_numbered.mp origin
  refine ⟨index, content, found, by simpa [Reading.diagnose] using place, ?_⟩
  rcases malformed_iff validator state judgement.reading (verdict ▸ raised) with
    ⟨error, result, rfl⟩ | ⟨⟨record, result⟩, other⟩
  · rw [result] at read
    exact .inl ⟨error, rfl, read, by rw [Reading.diagnose, result]; rfl⟩
  · rw [result] at read
    obtain ⟨text, members, written, parsed, kept⟩ := object_of_readLine? read
    refine .inr ⟨other, text, members, written, parsed, ?_⟩
    rw [Reading.diagnose, result, ← kept]
    rfl

theorem accounts (judged : Judged validator lines judgements) (total : judgements.length = lines.countP (HoldsEntry ·)) :
    Accounts validator lines (reportOf judgements) where
  total := total
  sum := total_reportOf judgements
  size := by
    simp only [reportOf, List.size_toArray, List.length_filterMap_eq_countP]
    refine List.countP_congr fun judgement _ => ?_
    simp [Judgement.error?, Verdict.isValid]
  increasing := judged.errors_increasing
  rejected := judged.rejected_iff
  ordered := judged.warnings_ordered
  paired := judged.warnings_paired
  shared _ failed _ raised line := judged.warning_at_error failed raised line
  failures := by
    intro error member
    obtain ⟨judgement, inside, finding, fatal, rfl⟩ := mem_errors.mp member
    obtain ⟨_, state, verdict⟩ := judged.verdicts judgement inside
    exact fatal_severity validator state judgement.reading (verdict ▸ fatal)
  doubts := by
    intro warning member
    obtain ⟨judgement, inside, finding, raised, rfl⟩ := mem_warnings.mp member
    obtain ⟨_, state, verdict⟩ := judged.verdicts judgement inside
    exact verdict_severity validator state judgement.reading (verdict ▸ raised)
  located _ := judged.located

end Judged

/-- The report on a stream whose reads do not fail accounts for every line of its bytes. -/
theorem validate_accounts (validator : Validator) (source : String) (contents : List Bytes) :
    ∃ lines, Delimited contents.flatten lines ∧
      Accounts validator lines (validate validator source (contents.map .bytes)).value := by
  refine ⟨contentLines contents.flatten, contentLines_delimited _, ?_⟩
  rw [validate_bytes]
  apply (judged validator none _).accounts
  rw [← length_numbered 0]
  exact (List.length_map _).symm.trans (congrArg List.length (map_reading_judge validator none _))

end StateAudit.Stream
