import StateAudit.Proofs.ReportRun

/-! The transition warnings of a report follow from the valid records of its stream: one at each
record whose state is not listed under the state of the valid record before it. Nothing else in
a report depends on the transition rules. -/

namespace StateAudit

def Finding.isTransition : Finding → Bool
  | .invalidTransition _ _ _ => true
  | _ => false

def Report.withoutTransitions (report : Report) : Report :=
  { report with warnings := report.warnings.filter (!·.reason.isTransition) }

theorem Report.withoutTransitions_append (first second : Report) :
    (first ++ second).withoutTransitions = first.withoutTransitions ++ second.withoutTransitions := by
  simp [withoutTransitions, Report.append_def]

def Config.lists (graph : Dictionary (List String)) (source target : String) : Bool :=
  graph.any fun (listed, targets) => listed == source && targets.contains target

theorem Config.contains_edges (graph : Dictionary (List String)) (source target : String) :
    (edges graph).contains (source, target) = lists graph source target := by
  rw [Bool.eq_iff_iff, List.contains_iff_mem, edges, List.mem_eraseDups, lists, List.any_eq_true]
  simp only [List.mem_flatMap, List.mem_map, Prod.mk.injEq, Bool.and_eq_true, beq_iff_eq, List.contains_iff_mem]
  constructor
  · rintro ⟨entry, member, listed, inside, rfl, rfl⟩
    exact ⟨entry, member, rfl, inside⟩
  · rintro ⟨entry, member, rfl, inside⟩
    exact ⟨entry, member, target, inside, rfl, rfl⟩

namespace Validator

theorem isTransition_mismatch (validator : Validator) (record : Record) {finding : Finding}
    (member : finding ∈ validator.mismatch record) : finding.isTransition = false := by
  rcases mismatch_cases validator record with none | ⟨logged, one⟩
  · cases none ▸ member
  · obtain rfl := List.mem_singleton.mp (one ▸ member)
    rfl

theorem isTransition_transitionWarnings (validator : Validator) (previous : Option String) (target : String)
    {finding : Finding} (member : finding ∈ validator.transitionWarnings previous target) :
    finding.isTransition = true := by
  rcases transitionWarnings_cases validator previous target with none | ⟨source, cause, one⟩
  · cases none ▸ member
  · obtain rfl := List.mem_singleton.mp (one ▸ member)
    rfl

end Validator

namespace Stream

def crossings (validator : Validator) (previous : Option String) : List (Nat × Record) → List Diagnostic
  | [] => []
  | (line, record) :: rest =>
    (validator.transitionWarnings previous record.derivedId).map (Reading.diagnose ⟨line, .ok record⟩) ++
      crossings validator (some record.derivedId) rest

/-- The warning at a valid record whose state is not allowed after the one before. -/
def crossing (allowed : String → String → Bool) (before after : Nat × Record) : List Diagnostic :=
  if allowed before.2.derivedId after.2.derivedId then []
  else [{ line := after.1, reason := .invalidTransition before.2.derivedId after.2.derivedId .notAllowed,
          offending := some after.2.raw }]

private theorem filter_verdict (validator : Validator) (previous : Option String) (reading : Reading) :
    (reading.verdict validator previous).warnings.filter Finding.isTransition =
      ((reading.accepted? validator).map fun record =>
        validator.transitionWarnings previous record.derivedId).getD [] := by
  obtain ⟨line, result⟩ := reading
  cases result with
  | error error => rfl
  | ok record =>
    have quiet : (validator.mismatch record).filter Finding.isTransition = [] :=
      List.filter_eq_nil_iff.mpr fun finding member => by simp [validator.isTransition_mismatch record member]
    have kept : ∀ target, (validator.transitionWarnings previous target).filter Finding.isTransition =
        validator.transitionWarnings previous target := fun target =>
      List.filter_eq_self.mpr fun finding member => validator.isTransition_transitionWarnings previous target member
    simp only [Reading.verdict, Validator.warnings_validate, List.filter_append, quiet, List.nil_append,
      Reading.accepted?, Except.toOption, Option.filter]
    cases validator.accepts record with
    | false => rfl
    | true => exact kept record.derivedId

theorem filter_judge (validator : Validator) (previous : Option String) (readings : List Reading) :
    ((judge validator previous readings).flatMap Judgement.warnings).filter (·.reason.isTransition) =
      crossings validator previous (accepted validator readings) := by
  induction readings generalizing previous with
  | nil => rfl
  | cons reading rest ih =>
    have own : (Judgement.warnings ⟨reading, reading.verdict validator previous⟩).filter (·.reason.isTransition) =
        (((reading.accepted? validator).map fun record =>
          validator.transitionWarnings previous record.derivedId).getD []).map reading.diagnose := by
      rw [← filter_verdict, Judgement.warnings, List.filter_map]
      rfl
    rw [judge, List.flatMap_cons, List.filter_append, own, ih, next_eq, accepted_cons]
    cases found : reading.accepted? validator with
    | none => rfl
    | some record =>
      obtain ⟨line, result⟩ := reading
      obtain rfl : result = .ok record := (accepted?_eq_some.mp found).1
      rfl

theorem crossings_accepted (validator : Validator) (first : Nat × Record) (rest : List (Nat × Record))
    (valid : ∀ entry ∈ first :: rest, validator.accepts entry.2 = true) :
    crossings validator (some first.2.derivedId) rest =
      (List.zipWith (crossing validator.rules.allows) (first :: rest) rest).flatten := by
  induction rest generalizing first with
  | nil => rfl
  | cons next rest ih =>
    have known := valid next (List.mem_cons_of_mem _ List.mem_cons_self)
    have step : (validator.transitionWarnings (some first.2.derivedId) next.2.derivedId).map
        (Reading.diagnose ⟨next.1, .ok next.2⟩) = crossing validator.rules.allows first next := by
      rw [Validator.transitionWarnings_accepted validator (valid first List.mem_cons_self) known, crossing]
      split <;> rfl
    rw [List.zipWith_cons_cons, List.flatten_cons, ← step,
      ← ih next fun entry member => valid entry (List.mem_cons_of_mem _ member)]
    rfl

theorem transitions_judge (validator : Validator) (readings : List Reading) :
    ((judge validator none readings).flatMap Judgement.warnings).filter (·.reason.isTransition) =
      (List.zipWith (crossing validator.rules.allows) (accepted validator readings)
        (accepted validator readings).tail).flatten := by
  rw [filter_judge]
  have valid : ∀ entry ∈ accepted validator readings, validator.accepts entry.2 = true :=
    fun _ => accepts_of_mem_accepted
  cases found : accepted validator readings with
  | nil => rfl
  | cons first rest =>
    rw [found] at valid
    rw [List.tail_cons, ← crossings_accepted validator first rest valid]
    rfl

section Rules
variable (validator : Validator) (rules : TransitionRules)

private theorem accepts_rules (record : Record) :
    Validator.accepts { validator with rules } record = validator.accepts record := by
  rw [Validator.accepts_eq, Validator.accepts_eq]
  rfl

private theorem next_rules (previous : Option String) (reading : Reading) :
    reading.next { validator with rules } previous = reading.next validator previous := by
  have same : Validator.accepts { validator with rules } = validator.accepts := funext (accepts_rules validator rules)
  rw [next_eq, next_eq, Reading.accepted?, Reading.accepted?, same]

private theorem verdict_rules (previous : Option String) (reading : Reading) :
    (reading.verdict { validator with rules } previous).fatal = (reading.verdict validator previous).fatal ∧
      (reading.verdict { validator with rules } previous).warnings.filter (!·.isTransition) =
        (reading.verdict validator previous).warnings.filter (!·.isTransition) := by
  obtain ⟨line, result⟩ := reading
  cases result with
  | error error => exact ⟨rfl, rfl⟩
  | ok record =>
    have dropped : ∀ judge : Validator, (if judge.accepts record then
        judge.transitionWarnings previous record.derivedId else []).filter (!·.isTransition) = [] := by
      intro judge
      refine List.filter_eq_nil_iff.mpr fun finding member => ?_
      split at member
      · simp [judge.isTransition_transitionWarnings _ _ member]
      · cases member
    simp only [Reading.verdict, Validator.fatal_validate, Validator.warnings_validate, List.filter_append, dropped]
    exact ⟨rfl, rfl⟩

private theorem reportOf_rules (previous : Option String) (reading : Reading) :
    (reportOf [⟨reading, reading.verdict { validator with rules } previous⟩]).withoutTransitions =
      (reportOf [⟨reading, reading.verdict validator previous⟩]).withoutTransitions := by
  obtain ⟨fatal, kept⟩ := verdict_rules validator rules previous reading
  have warnings := congrArg (List.map reading.diagnose) kept
  refine Report.ext rfl ?_ ?_ ?_ ?_
  · simp only [Report.withoutTransitions, reportOf, Verdict.isValid, List.countP_singleton, fatal]
  · simp only [Report.withoutTransitions, reportOf, Verdict.isValid, List.countP_singleton, fatal]
  · simp only [Report.withoutTransitions, reportOf, Judgement.error?, List.filterMap_cons, List.filterMap_nil, fatal]
  · simpa [Report.withoutTransitions, reportOf, Judgement.warnings, List.filter_map, Reading.diagnose,
      Function.comp_def] using warnings

theorem withoutTransitions_judge (previous : Option String) (readings : List Reading) :
    (reportOf (judge { validator with rules } previous readings)).withoutTransitions =
        (reportOf (judge validator previous readings)).withoutTransitions ∧
      stateAfter { validator with rules } previous readings = stateAfter validator previous readings := by
  induction readings generalizing previous with
  | nil => exact ⟨rfl, rfl⟩
  | cons reading rest ih =>
    obtain ⟨reports, states⟩ := ih (reading.next validator previous)
    have step := reportOf_rules validator rules previous reading
    constructor
    · rw [judge, judge, reportOf_cons ⟨reading, reading.verdict { validator with rules } previous⟩,
        reportOf_cons ⟨reading, reading.verdict validator previous⟩, Report.withoutTransitions_append,
        Report.withoutTransitions_append, step, next_rules, reports]
    · simp only [stateAfter, List.foldl_cons, next_rules] at states ⊢
      exact states

end Rules

/-- The transition warnings of a report are those between valid records that follow one another
and whose edge the settings do not list. All else is the same under any two rules. -/
theorem validate_transitions (vocabulary : Vocabulary) (config : Config) (source : String) (chunks : List Chunk) :
    let validator := Validator.ofConfig vocabulary config
    let report := (validate validator source chunks).value
    let records := accepted validator (readings (entries chunks))
    (report.valid = records.length ∧ (records.map Prod.fst).Pairwise (· < ·)) ∧
    report.warnings.toList.filter (·.reason.isTransition) = (match config.transitions with
      | none => []
      | some graph => (List.zipWith (crossing (Config.lists graph)) records records.tail).flatten) ∧
    ∀ first second : TransitionRules,
      let one : Validator := { validator with rules := first }
      let other : Validator := { validator with rules := second }
      (validate one source chunks).value.withoutTransitions = (validate other source chunks).value.withoutTransitions ∧
      (validate one source chunks).problems = (validate other source chunks).problems ∧
      ∀ count, stateAfter one none ((readings (entries chunks)).take count) =
        stateAfter other none ((readings (entries chunks)).take count) := by
  intro validator report records
  refine ⟨⟨?_, ?_⟩, ?_, ?_⟩
  · simp only [report, validate_value]
    exact valid_reportOf validator none _
  · simp only [records, entries, readings_entriesFrom]
    exact accepted_increasing validator 0 _
  · have transitions := transitions_judge validator (readings (entries chunks))
    have listed : report.warnings.toList.filter (·.reason.isTransition) =
        (List.zipWith (crossing validator.rules.allows) records records.tail).flatten := by
      rw [← transitions]
      simp only [report, validate_value, reportOf]
    rw [listed]
    cases settings : config.transitions with
    | none =>
      have silent : crossing validator.rules.allows = fun _ _ => [] := by
        funext before after
        simp [crossing, validator, Validator.ofConfig, Config.transitionRules, settings, TransitionRules.allows]
      rw [silent]
      refine List.flatten_eq_nil_iff.mpr fun warnings member => ?_
      obtain ⟨index, inside, rfl⟩ := List.mem_iff_getElem.mp member
      exact List.getElem_zipWith
    | some graph =>
      have edges : validator.rules.allows = Config.lists graph := by
        funext origin target
        simpa [validator, Validator.ofConfig, Config.transitionRules, settings, TransitionRules.allows] using
          Config.contains_edges graph origin target
      rw [edges]
  · intro first second one other
    refine ⟨?_, ?_, fun count => ?_⟩
    · simp only [validate_value]
      rw [(withoutTransitions_judge validator first none _).1, (withoutTransitions_judge validator second none _).1]
    · simp only [validate, validateFrom_eq]
    · rw [(withoutTransitions_judge validator first none _).2, (withoutTransitions_judge validator second none _).2]

end Stream

end StateAudit
