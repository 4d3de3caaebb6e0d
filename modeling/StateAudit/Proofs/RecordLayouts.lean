import StateAudit.Proofs.AnalysisRun
import StateAudit.Proofs.DictionaryEntries
import StateAudit.Proofs.RecentWindow
import StateAudit.Report.Text
import StateAudit.Summary.Text

/-! The flat and the nested layout of a record say the same. An object in one of them and its other
form are read as one record, up to the object itself, and no verdict and no figure looks at that. -/

namespace StateAudit

namespace Record

/-- The keys that only the flat layout has. -/
def flatKeys : List String := ["success", "error_msg", "duration_ms"]

/-- An object without the sections of the nested layout. -/
structure Flat (members : Json.Members) : Prop where
  result : ∀ inner, members.get? "result" ≠ some (.object inner)
  performance : ∀ inner, members.get? "performance" ≠ some (.object inner)

/-- The status that a flag stands for. A value of another kind stands for none. -/
def statusOfFlag : Option Json → Option Json
  | some (.bool true) => some (.string "SUCCESS")
  | some (.bool false) => some (.string "ERROR")
  | _ => none

/-- What the flat keys say about the outcome, as a `result` section. -/
def resultSection (members : Json.Members) : Json.Members :=
  ((members.get? "error_msg").map ("message", ·)).toList ++
    ((statusOfFlag (members.get? "success")).map ("status", ·)).toList

/-- What the flat keys say about performance, as a `performance` section. -/
def performanceSection (members : Json.Members) : Json.Members :=
  ((members.get? "duration_ms").map ("duration_ms", ·)).toList

/-- The nested form of a flat object. -/
def nest (members : Json.Members) : Json.Members :=
  Dictionary.insert "performance" (.object (performanceSection members))
    (Dictionary.insert "result" (.object (resultSection members)) (members.filter (!flatKeys.contains ·.1)))

theorem get?_nest {members : Json.Members} {key : String} (other : key ≠ "performance") (another : key ≠ "result") :
    (nest members).get? key = if flatKeys.contains key then none else members.get? key := by
  rw [nest, Dictionary.get?_insert, if_neg other, Dictionary.get?_insert, if_neg another,
    Dictionary.get?_filter (!flatKeys.contains ·)]
  cases flatKeys.contains key <;> rfl

theorem get?_nest_result (members : Json.Members) :
    (nest members).get? "result" = some (.object (resultSection members)) := by
  rw [nest, Dictionary.get?_insert, if_neg (by decide), Dictionary.get?_insert, if_pos rfl]

theorem get?_nest_performance (members : Json.Members) :
    (nest members).get? "performance" = some (.object (performanceSection members)) := by
  rw [nest, Dictionary.get?_insert, if_pos rfl]

theorem get?_resultSection (members : Json.Members) :
    Dictionary.get? (resultSection members) "message" = members.get? "error_msg" ∧
      Dictionary.get? (resultSection members) "status" = statusOfFlag (members.get? "success") := by
  rw [resultSection]
  generalize members.get? "error_msg" = message
  generalize statusOfFlag (members.get? "success") = status
  cases message <;> cases status <;> exact ⟨rfl, rfl⟩

theorem get?_performanceSection (members : Json.Members) (key : String) :
    Dictionary.get? (performanceSection members) key =
      if key = "duration_ms" then members.get? "duration_ms" else none := by
  rw [performanceSection]
  cases members.get? "duration_ms" with
  | none => simp [Dictionary.get?]
  | some value => exact Dictionary.get?_cons key "duration_ms" value []

section Fields
variable {members others : Json.Members} {key other : String}

theorem textField_congr (same : members.get? key = others.get? other) : textField members key = textField others other := by
  rw [textField, same, textField]

theorem stringField_congr (same : members.get? key = others.get? key) : stringField members key = stringField others key := by
  rw [stringField, same, stringField]

end Fields

theorem outcome_nest {members : Json.Members} (flat : Flat members) : outcome (nest members) = outcome members := by
  have plain : outcome members = flatOutcome members := by
    rw [outcome]
    split
    next inner found => exact absurd found (flat.result inner)
    next => rfl
  obtain ⟨message, status⟩ := get?_resultSection members
  rw [plain, outcome, get?_nest_result]
  refine Prod.ext ?_ (textField_congr message)
  simp only [nestedOutcome, flatOutcome, status]
  cases members.get? "success" with
  | none => rfl
  | some flag =>
    cases flag with
    | bool value => cases value <;> rfl
    | null | number _ | string _ | array _ | object _ => rfl

theorem measurements_nest {members : Json.Members} (flat : Flat members) :
    measurements (nest members) = measurements members := by
  have removed : numberField (nest members) "duration_ms" = none := by
    rw [numberField, get?_nest (by decide) (by decide), if_pos (by decide)]
    rfl
  have taken (key : String) : numberField (performanceSection members) key =
      if key = "duration_ms" then numberField members "duration_ms" else none := by
    rw [numberField, get?_performanceSection]
    split <;> rfl
  have plain : measurements members = { durationMs := numberField members "duration_ms" } := by
    rw [measurements]
    split
    next inner found => exact absurd found (flat.performance inner)
    next => rfl
  rw [plain, measurements, get?_nest_performance, removed]
  simp [taken]

/-- An object is read as its nested form is: with the same error, or as the same record of another object. -/
theorem ofMembers_nest {members : Json.Members} (flat : Flat members) : ofMembers (nest members) =
    (ofMembers members).map fun record => { record with members := nest members } := by
  have kept (key : String) (plain : flatKeys.contains key = false) (other : key ≠ "performance")
      (another : key ≠ "result") : (nest members).get? key = members.get? key := by
    rw [get?_nest other another, plain]
    rfl
  rw [ofMembers, ofMembers, stringField_congr (kept "primitive" (by decide) (by decide) (by decide)),
    stringField_congr (kept "context" (by decide) (by decide) (by decide)),
    textField_congr (kept "state_id" (by decide) (by decide) (by decide)), outcome_nest flat, measurements_nest flat]
  cases stringField members "primitive" with
  | error error => rfl
  | ok primitive =>
    cases stringField members "context" with
    | error error => rfl
    | ok context => rfl

/-- A record without the object that it was read from. -/
def bare (record : Record) : Record := { record with members := [] }

end Record

def Diagnostic.bare (diagnostic : Diagnostic) : Diagnostic :=
  { diagnostic with offending := diagnostic.offending.map fun _ => .object [] }

/-- A report that still tells where an object was offending, and not which. -/
def Report.bare (report : Report) : Report := report.map Diagnostic.bare

def Summary.bare (summary : Summary) : Summary :=
  { summary with errorAnalysis :=
      { summary.errorAnalysis with recent := summary.errorAnalysis.recent.map Record.bare } }

theorem Report.listing_bare (title noun : String) (diagnostics : List Diagnostic) (limit : Nat) :
    listing title noun (diagnostics.map Diagnostic.bare) limit = listing title noun diagnostics limit := by
  have shown (found : List Diagnostic) :
      (found.map Diagnostic.bare).mapIdx diagnosticLine = found.mapIdx diagnosticLine := by
    rw [List.mapIdx_eq_zipIdx_map, List.zipIdx_map, List.map_map, List.mapIdx_eq_zipIdx_map]
    rfl
  simp only [listing, List.isEmpty_map, List.length_map, ← List.map_take, shown]

theorem Report.text_bare (report : Report) (limit : Nat) : report.bare.text limit = report.text limit := by
  simp only [text, lines, bare, map, Array.toList_map, listing_bare]
  rfl

theorem Summary.text_bare (summary : Summary) : summary.bare.text = summary.text := by
  simp only [text, lines, errorLines, bare, List.isEmpty_map, List.map_map]
  rfl

def Observation.bare : Observation → Observation
  | .record found => .record found.bare
  | .malformed => .malformed

open Observation (records failures malformedCount)

theorem Observation.records_bare (observations : List Observation) :
    records (observations.map bare) = (records observations).map Record.bare := by
  rw [records, records, List.filterMap_map, List.map_filterMap]
  congr 1
  funext observation
  cases observation <;> rfl

theorem Observation.failures_bare (observations : List Observation) :
    failures (observations.map bare) = (failures observations).map Record.bare := by
  rw [failures, records_bare, List.filter_map]
  rfl

theorem Observation.malformedCount_bare (observations : List Observation) :
    malformedCount (observations.map bare) = malformedCount observations := by
  rw [malformedCount, malformedCount, List.countP_map]
  congr 1
  funext observation
  cases observation <;> rfl

theorem Aggregate.summarize_bare (config : Config) (observations : List Observation) :
    ((ofConfig config).run (observations.map Observation.bare)).summarize =
      ((ofConfig config).run observations).summarize.bare := by
  have recent (capacity : Nat) (found : List Record) :
      (found.map Record.bare).rtake capacity = (found.rtake capacity).map Record.bare := by
    rw [List.rtake, List.rtake, List.length_map, List.map_drop]
  rw [run_eq, run_eq]
  simp only [Observation.records_bare, Observation.failures_bare, Observation.malformedCount_bare, summarize,
    Summary.bare, ofConfig, List.map_map, List.length_map, Window.toList_foldl_push, recent]
  rfl

namespace Stream

def Reading.bare (reading : Reading) : Reading := { reading with result := reading.result.map Record.bare }

theorem Reading.observation_bare (reading : Reading) : reading.bare.observation = reading.observation.bare := by
  obtain ⟨line, result⟩ := reading
  cases result <;> rfl

theorem reportOf_bare (validator : Validator) (previous : Option String) (readings : List Reading) :
    reportOf (judge validator previous (readings.map Reading.bare)) =
      (reportOf (judge validator previous readings)).bare := by
  have verdict (state : Option String) (reading : Reading) :
      reading.bare.verdict validator state = reading.verdict validator state := by
    obtain ⟨line, result⟩ := reading
    cases result <;> rfl
  have next (state : Option String) (reading : Reading) :
      reading.bare.next validator state = reading.next validator state := by
    obtain ⟨line, result⟩ := reading
    cases result <;> rfl
  have diagnose (reading : Reading) : reading.bare.diagnose = Diagnostic.bare ∘ reading.diagnose := by
    obtain ⟨line, result⟩ := reading
    cases result <;> rfl
  rw [judge_map validator previous Reading.bare id verdict next]
  refine reportOf_map (fun judgement => ⟨judgement.reading.bare, judgement.verdict⟩) Diagnostic.bare (fun _ => rfl) ?_ ?_ _
  · intro judgement
    rw [Judgement.error?, Judgement.error?, Option.map_map, diagnose]
  · intro judgement
    rw [Judgement.warnings, Judgement.warnings, List.map_map, diagnose]

/-- A stream of objects, each at its line. -/
def entriesOf (objects : List (Nat × Json.Members)) : List Entry :=
  objects.map fun (line, members) => .ofResult line (Record.ofJson (.object members))

/-- The same object at the same line, or the nested form of a flat one. -/
def Relaid (object other : Nat × Json.Members) : Prop :=
  other.1 = object.1 ∧ (other.2 = object.2 ∨ Record.Flat object.2 ∧ other.2 = Record.nest object.2)

theorem readings_entriesOf (objects : List (Nat × Json.Members)) :
    readings (entriesOf objects) = objects.map fun (line, members) => ⟨line, Record.ofMembers members⟩ := by
  induction objects with
  | nil => rfl
  | cons object rest ih =>
    rw [entriesOf, List.map_cons, readings_ofResult, ← entriesOf, ih]
    rfl

theorem bare_readings {objects others : List (Nat × Json.Members)} (relaid : List.Forall₂ Relaid objects others) :
    (readings (entriesOf others)).map Reading.bare = (readings (entriesOf objects)).map Reading.bare := by
  simp only [readings_entriesOf, List.map_map]
  induction relaid with
  | nil => rfl
  | @cons object other objects others same _ ih =>
    obtain ⟨line, members⟩ := object
    obtain ⟨place, form⟩ := other
    simp only [Relaid] at same
    rw [List.map_cons, List.map_cons, ih]
    obtain ⟨rfl, rfl | ⟨flat, rfl⟩⟩ := same
    · rfl
    · refine congrArg (· :: _) ?_
      simp only [Function.comp_apply, Reading.bare, Record.ofMembers_nest flat]
      cases Record.ofMembers members <;> rfl

/-- Objects of a stream may be given in the other layout, here and there or everywhere. Reports and
summaries stay as they are, up to the objects they show, and their texts stay altogether. -/
theorem layouts_agree :
    (∀ members, Record.Flat members → Record.ofJson (.object (Record.nest members)) =
      (Record.ofJson (.object members)).map fun record => { record with members := Record.nest members }) ∧
    ∀ objects others, List.Forall₂ Relaid objects others →
      (∀ validator source,
        let report := (validateFrom validator source {} {} (entriesOf objects)).value
        let other := (validateFrom validator source {} {} (entriesOf others)).value
        other.bare = report.bare ∧ ∀ limit, other.text limit = report.text limit) ∧
      ∀ config source,
        let summary := (analyzeFrom source (.ofConfig config) (entriesOf objects)).value.summarize
        let other := (analyzeFrom source (.ofConfig config) (entriesOf others)).value.summarize
        other.bare = summary.bare ∧ other.text = summary.text := by
  refine ⟨fun members flat => Record.ofMembers_nest flat, fun objects others relaid => ⟨?_, ?_⟩⟩
  · intro validator source report other
    have same : other.bare = report.bare := by
      simp only [other, report, validateFrom_eq, Report.empty_append]
      rw [← reportOf_bare, bare_readings relaid, reportOf_bare]
    refine ⟨same, fun limit => ?_⟩
    rw [← Report.text_bare, same, Report.text_bare]
  · intro config source summary other
    have observed : (readings (entriesOf others)).map (Observation.bare ∘ Reading.observation) =
        (readings (entriesOf objects)).map (Observation.bare ∘ Reading.observation) := by
      have found := congrArg (List.map Reading.observation) (bare_readings relaid)
      simpa only [List.map_map, Function.comp_def, Reading.observation_bare] using found
    have same : other.bare = summary.bare := by
      simp only [other, summary, analyzeFrom_eq, ← Aggregate.summarize_bare, List.map_map, observed]
    refine ⟨same, ?_⟩
    rw [← Summary.text_bare, same, Summary.text_bare]

/-- A failed operation in the flat layout. -/
def flatFailure : Json.Members :=
  [("duration_ms", .number (.whole 7)), ("error_msg", .string "disk full"), ("primitive", .string "write"),
    ("success", .bool false)]

theorem layouts_mixed :
    let objects := [(1, flatFailure), (2, flatFailure)]
    let mixed := [(1, flatFailure), (2, Record.nest flatFailure)]
    let summary := (analyzeFrom "log" (.ofConfig {}) (entriesOf objects)).value.summarize
    let other := (analyzeFrom "log" (.ofConfig {}) (entriesOf mixed)).value.summarize
    Record.Flat flatFailure ∧ List.Forall₂ Relaid objects mixed ∧
      summary.errors = 2 ∧ summary.performance.durationMs.count = 2 ∧
      summary.errorAnalysis.recent.map (·.members.length) = [4, 4] ∧
      other.errorAnalysis.recent.map (·.members.length) = [4, 3] ∧
      other.bare = summary.bare ∧ other.text = summary.text := by
  intro objects mixed summary other
  have flat : Record.Flat flatFailure := ⟨nofun, nofun⟩
  have relaid : List.Forall₂ Relaid objects mixed :=
    .cons ⟨rfl, .inl rfl⟩ (.cons ⟨rfl, .inr ⟨flat, rfl⟩⟩ .nil)
  obtain ⟨_, same⟩ := layouts_agree.2 objects mixed relaid
  obtain ⟨alike, text⟩ := same {} "log"
  exact ⟨flat, relaid, by decide +kernel, by decide +kernel, by decide +kernel, by decide +kernel, alike, text⟩

end Stream

end StateAudit
