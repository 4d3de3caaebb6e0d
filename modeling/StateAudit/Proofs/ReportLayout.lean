import StateAudit.Report.Text
import StateAudit.Proofs.RecordVerdict
import StateAudit.Proofs.ReportAccounting
import StateAudit.Proofs.TextLines

/-! The lines of a report as text. Every row ends with a line feed, and a row is one line unless a
shown finding quotes a line feed: nothing is escaped. What a finding quotes comes from the record, the
state before and the vocabulary, so a stream whose records quote none has a line for each row. -/

namespace StateAudit

open Text (lineFeeds lineFeeds_append lineFeeds_toString lineFeeds_nat lineFeeds_intercalate pieces unlines)

/-- What an error quotes. Only a kind or a field name, never the line that was read. -/
def RecordError.quoted : RecordError → List String
  | .encoding => []
  | .json _ => []
  | .notAnObject kind => [kind]
  | .fieldType field => [field]

theorem RecordError.lineFeeds_message (error : RecordError) :
    lineFeeds error.message = (error.quoted.map lineFeeds).sum := by
  cases error with
  | encoding => decide +kernel
  | json error =>
    have cause : lineFeeds error.cause.message = 0 := by cases error.cause <;> decide +kernel
    have phrases : lineFeeds "JSON parse error: " + lineFeeds " at line " + lineFeeds " column " = 0 := by decide +kernel
    have place : lineFeeds s!"{error.cause.message} at line {error.position.line} column {error.position.column}" = 0 := by
      simp only [lineFeeds_append, lineFeeds_toString, lineFeeds_nat, cause]
      omega
    change lineFeeds ("JSON parse error: " ++ error.message) = 0
    rw [lineFeeds_append]
    exact Nat.add_eq_zero_iff.2 ⟨by omega, place⟩
  | notAnObject kind =>
    have phrase : lineFeeds "expected a JSON object, found " = 0 := by decide +kernel
    change lineFeeds s!"expected a JSON object, found {kind}" = lineFeeds kind + 0
    simp only [lineFeeds_append, lineFeeds_toString, phrase, Nat.zero_add, Nat.add_zero]
  | fieldType field =>
    have phrases : lineFeeds "field `" + lineFeeds "` has the wrong type: expected string" = 0 := by decide +kernel
    change lineFeeds s!"field `{field}` has the wrong type: expected string" = lineFeeds field + 0
    simp only [lineFeeds_append, lineFeeds_toString]
    omega

/-- What a finding quotes. -/
def Finding.quoted : Finding → List String
  | .invalidPrimitive primitive examples => primitive :: examples
  | .invalidContext context examples => context :: examples
  | .invalidState stateId => [stateId]
  | .stateIdMismatch logged expected => [logged, expected]
  | .invalidTransition source target (.unknownState stateId) => [source, target, stateId]
  | .invalidTransition source target .notAllowed => [source, target]
  | .malformed error => error.quoted

/-- A finding has the line feeds that it quotes and no others. -/
theorem Finding.lineFeeds_text (finding : Finding) : lineFeeds finding.text = (finding.quoted.map lineFeeds).sum := by
  have comma : lineFeeds ", " = 0 := by decide +kernel
  match finding with
  | .invalidPrimitive primitive examples =>
    have phrases : lineFeeds "Unknown primitive: " + lineFeeds ". Available: " + lineFeeds ", ..." = 0 := by decide +kernel
    change lineFeeds (s!"Unknown primitive: {primitive}. Available: " ++ ", ".intercalate examples ++ ", ...") =
      lineFeeds primitive + (examples.map lineFeeds).sum
    simp only [lineFeeds_append, lineFeeds_toString, lineFeeds_intercalate comma]
    omega
  | .invalidContext context examples =>
    have phrases : lineFeeds "Unknown context: " + lineFeeds ". Available: " + lineFeeds ", ..." = 0 := by decide +kernel
    change lineFeeds (s!"Unknown context: {context}. Available: " ++ ", ".intercalate examples ++ ", ...") =
      lineFeeds context + (examples.map lineFeeds).sum
    simp only [lineFeeds_append, lineFeeds_toString, lineFeeds_intercalate comma]
    omega
  | .invalidState stateId =>
    have phrase : lineFeeds "State ID not found in matrix: " = 0 := by decide +kernel
    change lineFeeds s!"State ID not found in matrix: {stateId}" = lineFeeds stateId + 0
    simp only [lineFeeds_append, lineFeeds_toString, phrase, Nat.zero_add, Nat.add_zero]
  | .stateIdMismatch logged expected =>
    have phrases : lineFeeds "State ID mismatch: got '" + lineFeeds "', expected '" + lineFeeds "'" = 0 := by decide +kernel
    change lineFeeds s!"State ID mismatch: got '{logged}', expected '{expected}'" = lineFeeds logged + (lineFeeds expected + 0)
    simp only [lineFeeds_append, lineFeeds_toString]
    omega
  | .invalidTransition source target (.unknownState stateId) =>
    have phrases : lineFeeds "Transition " + lineFeeds " -> " + lineFeeds ": State ID not found in matrix: " = 0 := by
      decide +kernel
    change lineFeeds s!"Transition {source} -> {target}: State ID not found in matrix: {stateId}" =
      lineFeeds source + (lineFeeds target + (lineFeeds stateId + 0))
    simp only [lineFeeds_append, lineFeeds_toString]
    omega
  | .invalidTransition source target .notAllowed =>
    have phrases : lineFeeds "Transition " + lineFeeds " -> " + lineFeeds " is not in the transition graph" = 0 := by
      decide +kernel
    change lineFeeds s!"Transition {source} -> {target} is not in the transition graph" =
      lineFeeds source + (lineFeeds target + 0)
    simp only [lineFeeds_append, lineFeeds_toString]
    omega
  | .malformed error => exact error.lineFeeds_message

namespace Report

/-- The rows of a list of findings: a title, the findings that are shown, how many more there are, a blank. -/
def listingRows (count limit : Nat) : Nat :=
  if count = 0 then 0 else 2 + min count limit + if limit < count then 1 else 0

def rowCount (report : Report) (limit : Nat) : Nat :=
  10 + (if 0 < report.total then 1 else 0) + listingRows report.errors.size limit + listingRows report.warnings.size limit

/-- The findings that are shown. -/
def shown (report : Report) (limit : Nat) : List Diagnostic :=
  report.errors.toList.take limit ++ report.warnings.toList.take limit

/-- A list of findings as rows: the first ones each in a row of its own, and the others counted. -/
structure Listed (title noun : String) (diagnostics : List Diagnostic) (limit : Nat) (rows : List String) : Prop where
  none : diagnostics = [] → rows = []
  some : diagnostics ≠ [] → ∃ items more, items.length + more = diagnostics.length ∧
    items.length = min diagnostics.length limit ∧
    (∀ index diagnostic, (diagnostics.take limit)[index]? = Option.some diagnostic →
      items[index]? = Option.some s!"  {index + 1}. Line {diagnostic.line}: {diagnostic.reason.text}") ∧
    rows = s!"{title} ({diagnostics.length}):" :: items ++ (if more = 0 then [] else [s!"  ... and {more} more {noun}"]) ++ [""]

section Listing
variable (title noun : String) (diagnostics : List Diagnostic) (limit : Nat)

theorem listed_listing : Listed title noun diagnostics limit (listing title noun diagnostics limit) := by
  constructor
  case none =>
    rintro rfl
    rfl
  case some =>
    intro filled
    refine ⟨(diagnostics.take limit).mapIdx diagnosticLine, diagnostics.length - limit, ?_, ?_, ?_, ?_⟩
    · rw [List.length_mapIdx, List.length_take]
      omega
    · rw [List.length_mapIdx, List.length_take, Nat.min_comm]
    · intro index diagnostic found
      rw [List.getElem?_mapIdx, found]
      rfl
    · rw [listing, if_neg (by simpa using filled)]
      congr 2
      by_cases more : limit < diagnostics.length
      · rw [if_pos more, if_neg (by omega)]
      · rw [if_neg more, if_pos (by omega)]

variable {title noun diagnostics limit} in
theorem Listed.length {rows : List String} (listed : Listed title noun diagnostics limit rows) :
    rows.length = listingRows diagnostics.length limit := by
  rw [listingRows]
  by_cases empty : diagnostics = []
  · rw [listed.none empty, empty]
    rfl
  · have some := List.length_pos_iff.2 empty
    obtain ⟨items, more, all, shown, _, rfl⟩ := listed.some empty
    rw [if_neg (Nat.ne_of_gt some), List.length_append, List.length_append, List.length_cons, List.length_singleton]
    by_cases rest : limit < diagnostics.length
    · rw [if_pos rest, if_neg (by omega), List.length_singleton]
      omega
    · rw [if_neg rest, if_pos (by omega), List.length_nil]
      omega

theorem lineFeeds_diagnosticLine (index : Nat) (diagnostic : Diagnostic) :
    lineFeeds (diagnosticLine index diagnostic) = lineFeeds diagnostic.reason.text := by
  have phrases : lineFeeds "  " + lineFeeds ". Line " + lineFeeds ": " = 0 := by decide +kernel
  simp only [diagnosticLine, lineFeeds_append, lineFeeds_toString, lineFeeds_nat]
  omega

theorem lineFeeds_listing (plain : lineFeeds title = 0 ∧ lineFeeds noun = 0) :
    ((listing title noun diagnostics limit).map lineFeeds).sum =
      ((diagnostics.take limit).map (lineFeeds ·.reason.text)).sum := by
  have head : lineFeeds s!"{title} ({diagnostics.length}):" = 0 := by
    have phrases : lineFeeds " (" + lineFeeds "):" = 0 := by decide +kernel
    simp only [lineFeeds_append, lineFeeds_toString, lineFeeds_nat]
    omega
  have tail (more : Nat) : lineFeeds s!"  ... and {more} more {noun}" = 0 := by
    have phrases : lineFeeds "  ... and " + lineFeeds " more " = 0 := by decide +kernel
    simp only [lineFeeds_append, lineFeeds_toString, lineFeeds_nat]
    omega
  have items : ((diagnostics.take limit).mapIdx diagnosticLine).map lineFeeds =
      (diagnostics.take limit).map (lineFeeds ·.reason.text) := by
    apply List.ext_getElem
    · simp only [List.length_map, List.length_mapIdx]
    · intro index first second
      simp only [List.getElem_map, List.getElem_mapIdx, lineFeeds_diagnosticLine]
  have blank : lineFeeds "" = 0 := rfl
  rw [listing]
  split
  next empty =>
    rw [List.isEmpty_iff.1 empty, List.take_nil]
    rfl
  next =>
    rw [List.map_append, List.map_append, List.map_cons, items, head]
    split
    · simp only [List.map_cons, List.map_nil, tail, blank, List.sum_append, List.sum_cons, List.sum_nil]
      omega
    · simp only [List.map_cons, List.map_nil, blank, List.sum_append, List.sum_cons, List.sum_nil]
      omega

end Listing

/-- A report as text: the rows that it has, and the lines that the rows are. -/
structure LaidOut (report : Report) (limit : Nat) : Prop where
  rows : (report.lines limit).length = report.rowCount limit
  sections : ∃ head errors warnings, report.lines limit = head ++ errors ++ warnings ++ [rule] ∧
    Listed "Errors" "errors" report.errors.toList limit errors ∧
    Listed "Warnings" "warnings" report.warnings.toList limit warnings
  /-- The text is the lines of its rows, and nothing comes after the last line feed. -/
  physical : pieces (report.text limit) = (report.lines limit).flatMap pieces ++ [""]
  feeds : lineFeeds (report.text limit) =
    report.rowCount limit + ((report.shown limit).map (lineFeeds ·.reason.text)).sum
  /-- Each row is one line just where no finding that is shown has a line feed. -/
  oneLine : pieces (report.text limit) = report.lines limit ++ [""] ↔
    ∀ diagnostic ∈ report.shown limit, lineFeeds diagnostic.reason.text = 0

theorem lineFeeds_lines (report : Report) (limit : Nat) :
    ((report.lines limit).map lineFeeds).sum = ((report.shown limit).map (lineFeeds ·.reason.text)).sum := by
  have errors := lineFeeds_listing "Errors" "errors" report.errors.toList limit (by decide +kernel)
  have warnings := lineFeeds_listing "Warnings" "warnings" report.warnings.toList limit (by decide +kernel)
  have edge : lineFeeds rule = 0 := by decide +kernel
  have phrases : lineFeeds "State Validation Report" + lineFeeds "" + lineFeeds "Summary:" + lineFeeds "  Total Entries: " +
      lineFeeds "  Valid Entries: " + lineFeeds "  Invalid Entries: " + lineFeeds "  Success Rate: " + lineFeeds "%" = 0 := by
    decide +kernel
  simp only [Nat.add_eq_zero_iff] at phrases
  rw [lines, shown, List.map_append, List.map_append, List.map_append, List.map_append, List.map_append, List.sum_append,
    List.sum_append, List.sum_append, errors, warnings, List.map_append, List.sum_append]
  have rate : ((if report.total = 0 then [] else ["  Success Rate: " ++ Decimal.fixed 2 report.successRate ++ "%"]).map
      lineFeeds).sum = 0 := by
    split
    · rfl
    · simp only [List.map_cons, List.map_nil, List.sum_cons, List.sum_nil, lineFeeds_append, Text.lineFeeds_fixed, phrases,
        Nat.add_zero]
  simp only [List.sum_append, rate, List.map_cons, List.map_nil, List.sum_cons, List.sum_nil, edge, lineFeeds_append,
    lineFeeds_toString, lineFeeds_nat, phrases, Nat.zero_add, Nat.add_zero]

theorem laidOut (report : Report) (limit : Nat) : report.LaidOut limit := by
  have errors := listed_listing "Errors" "errors" report.errors.toList limit
  have warnings := listed_listing "Warnings" "warnings" report.warnings.toList limit
  have rows : (report.lines limit).length = report.rowCount limit := by
    have first : (listing "Errors" "errors" report.errors.toList limit).length = listingRows report.errors.size limit :=
      errors.length
    have second : (listing "Warnings" "warnings" report.warnings.toList limit).length = listingRows report.warnings.size limit :=
      warnings.length
    rw [lines, rowCount, List.length_append, List.length_append, List.length_append, first, second]
    by_cases none : report.total = 0
    · rw [if_pos none, if_neg (by omega), List.append_nil, List.length_append]
      simp only [List.length_cons, List.length_nil]
      omega
    · rw [if_neg none, if_pos (by omega), List.length_append, List.length_append]
      simp only [List.length_cons, List.length_nil]
      omega
  have physical : pieces (report.text limit) = (report.lines limit).flatMap pieces ++ [""] := Text.pieces_unlines _
  have feeds : lineFeeds (report.text limit) =
      report.rowCount limit + ((report.shown limit).map (lineFeeds ·.reason.text)).sum := by
    rw [text, Text.lineFeeds_unlines, rows, lineFeeds_lines]
  constructor
  case rows => exact rows
  case sections => exact ⟨_, _, _, rfl, errors, warnings⟩
  case physical => exact physical
  case feeds => exact feeds
  case oneLine =>
    have none : ((report.shown limit).map (lineFeeds ·.reason.text)).sum = 0 ↔
        ∀ diagnostic ∈ report.shown limit, lineFeeds diagnostic.reason.text = 0 := by
      rw [List.sum_eq_zero_iff_forall_eq_nat, List.forall_mem_map]
    rw [← none]
    constructor
    · intro same
      have count := congrArg List.length same
      rw [Text.length_pieces, List.length_append, List.length_singleton, rows, feeds] at count
      omega
    · intro plain
      rw [← lineFeeds_lines, List.sum_eq_zero_iff_forall_eq_nat, List.forall_mem_map] at plain
      rw [physical, Text.flatMap_pieces plain]

end Report

/-- No line feed in what a finding can quote of a record. -/
structure Record.Plain (record : Record) : Prop where
  primitive : lineFeeds (record.primitive.getD "") = 0
  context : lineFeeds (record.context.getD "") = 0
  stateId : lineFeeds (record.stateId.getD "") = 0

/-- No line feed in the labels that findings suggest. -/
structure Validator.Plain (validator : Validator) : Prop where
  primitives : ∀ label ∈ validator.vocabulary.primitiveExamples validator.suggestionLimit, lineFeeds label = 0
  contexts : ∀ label ∈ validator.vocabulary.contextExamples validator.suggestionLimit, lineFeeds label = 0

def Finding.Plain (finding : Finding) : Prop := ∀ quote ∈ finding.quoted, lineFeeds quote = 0

theorem Finding.Plain.text {finding : Finding} (plain : finding.Plain) : lineFeeds finding.text = 0 := by
  rw [lineFeeds_text, List.sum_eq_zero_iff_forall_eq_nat, List.forall_mem_map]
  exact plain

theorem Json.lineFeeds_kind (value : Json) : lineFeeds value.kind = 0 := by
  have kinds : lineFeeds "null" + lineFeeds "boolean" + lineFeeds "number" + lineFeeds "string" + lineFeeds "array" +
      lineFeeds "object" = 0 := by
    decide +kernel
  cases value <;> simp only [kind] <;> omega

/-- A line that is no record has no part in the text of its finding. -/
theorem RecordError.plain_of_parse {line : List Char} {error : RecordError} (failed : Record.parse line = .error error) :
    (Finding.malformed error).Plain := by
  have field {key : String} (plain : lineFeeds key = 0) {members : Json.Members} {error : RecordError}
      (wrong : Record.stringField members key = .error error) : (Finding.malformed error).Plain := by
    simp only [Record.stringField] at wrong
    split at wrong
    · cases wrong
    · cases wrong
    · cases wrong
    · obtain rfl := Except.error.inj wrong
      exact List.forall_mem_singleton.2 plain
  simp only [Record.parse] at failed
  split at failed
  next value parsed =>
    cases value with
    | object members =>
      simp only [Record.ofJson, Record.ofMembers] at failed
      split at failed
      next other first =>
        obtain rfl := Except.error.inj failed
        exact field (by decide +kernel) first
      next =>
        split at failed
        next other second =>
          obtain rfl := Except.error.inj failed
          exact field (by decide +kernel) second
        next => cases failed
    | null | bool _ | number _ | string _ | array _ =>
      obtain rfl := Except.error.inj failed
      exact List.forall_mem_singleton.2 (Json.lineFeeds_kind _)
  next =>
    obtain rfl := Except.error.inj failed
    exact List.forall_mem_nil _

theorem RecordError.plain_of_readLine? {content : Bytes} {error : RecordError}
    (failed : Stream.readLine? content = some (.error error)) : (Finding.malformed error).Plain := by
  simp only [Stream.readLine?] at failed
  split at failed
  · obtain rfl := Except.error.inj (Option.some.inj failed)
    exact List.forall_mem_nil _
  · split at failed
    · cases failed
    · exact RecordError.plain_of_parse (Option.some.inj failed)

section Plain
variable {validator : Validator} {record : Record} (labels : validator.Plain) (plain : record.Plain)

include plain

theorem Record.Plain.derivedId : lineFeeds record.derivedId = 0 := by
  have phrases : lineFeeds "PRIM_" + lineFeeds "_CTX_" = 0 := by decide +kernel
  rw [Record.derivedId, deriveStateId, lineFeeds_append, lineFeeds_append, lineFeeds_append, plain.primitive, plain.context]
  omega

theorem plain_mismatch : ∀ finding ∈ validator.mismatch record, finding.Plain := by
  intro finding member
  simp only [Validator.mismatch, Validator.mismatches] at member
  split at member
  · split at member
    · cases member
    · obtain rfl := List.mem_singleton.1 member
      exact List.forall_mem_cons.2 ⟨plain.stateId, List.forall_mem_singleton.2 plain.derivedId⟩
  · cases member

include labels

theorem plain_fatal {finding : Finding} (fatal : validator.fatal? record = some finding) : finding.Plain := by
  simp only [Validator.fatal?] at fatal
  split at fatal
  · obtain rfl := Option.some.inj fatal
    exact List.forall_mem_cons.2 ⟨plain.primitive, labels.primitives⟩
  · split at fatal
    · obtain rfl := Option.some.inj fatal
      exact List.forall_mem_cons.2 ⟨plain.context, labels.contexts⟩
    · split at fatal
      · obtain rfl := Option.some.inj fatal
        exact List.forall_mem_cons.2 ⟨plain.derivedId, List.forall_mem_nil _⟩
      · cases fatal

end Plain

theorem plain_transition {validator : Validator} {previous : Option String} {target : String}
    (source : ∀ state, previous = some state → lineFeeds state = 0) (plain : lineFeeds target = 0) :
    ∀ finding ∈ validator.transitionWarnings previous target, finding.Plain := by
  intro finding member
  simp only [Validator.transitionWarnings] at member
  split at member
  · cases member
  next state =>
    have source := source state rfl
    split at member
    · cases member
    · split at member
      · cases member
      next cause found =>
        obtain rfl := List.mem_singleton.1 member
        have ends : ∀ quote ∈ [state, target], lineFeeds quote = 0 :=
          List.forall_mem_cons.2 ⟨source, List.forall_mem_singleton.2 plain⟩
        simp only [TransitionRules.fault?] at found
        split at found
        · obtain rfl := Option.some.inj found
          exact List.forall_mem_append.2 ⟨ends, List.forall_mem_singleton.2 source⟩
        · split at found
          · obtain rfl := Option.some.inj found
            exact List.forall_mem_append.2 ⟨ends, List.forall_mem_singleton.2 plain⟩
          · split at found
            · cases found
            · obtain rfl := Option.some.inj found
              exact ends

namespace Stream

/-- A line that can be shown in one line: a record without line feeds, or what holds none. -/
structure Reading.Plain (reading : Reading) : Prop where
  record : ∀ record, reading.result = .ok record → record.Plain
  error : ∀ error, reading.result = .error error → (Finding.malformed error).Plain

section Run
variable {validator : Validator} (labels : validator.Plain) {previous : Option String}
  (before : ∀ state, previous = some state → lineFeeds state = 0)

include labels before

/-- One step: plain findings, and a plain state for the next line. -/
theorem plain_verdict {reading : Reading} (plain : reading.Plain) :
    (∀ finding, (reading.verdict validator previous).fatal = some finding → finding.Plain) ∧
      (∀ finding ∈ (reading.verdict validator previous).warnings, finding.Plain) ∧
      ∀ state, reading.next validator previous = some state → lineFeeds state = 0 := by
  obtain ⟨line, result⟩ := reading
  cases result with
  | error error =>
    refine ⟨?_, List.forall_mem_nil _, before⟩
    rintro finding ⟨⟩
    exact plain.error error rfl
  | ok record =>
    have plain := plain.record record rfl
    simp only [Reading.verdict, Reading.next, Validator.fatal_validate, Validator.warnings_validate, Validator.next_validate]
    refine ⟨fun finding fatal => plain_fatal labels plain fatal, ?_, ?_⟩
    · apply List.forall_mem_append.2 ⟨plain_mismatch plain, ?_⟩
      split
      · exact plain_transition before plain.derivedId
      · exact List.forall_mem_nil _
    · split
      · rintro state ⟨⟩
        exact plain.derivedId
      · exact before

/-- The whole run: the state that each line is judged after is plain, and so are its findings. -/
theorem plain_judge {readings : List Reading} (plain : ∀ reading ∈ readings, reading.Plain) :
    ∀ judgement ∈ judge validator previous readings,
      (∀ finding, judgement.verdict.fatal = some finding → finding.Plain) ∧
        ∀ finding ∈ judgement.verdict.warnings, finding.Plain := by
  induction readings generalizing previous with
  | nil => exact List.forall_mem_nil _
  | cons reading rest ih =>
    obtain ⟨fatal, warnings, next⟩ := plain_verdict labels before (plain reading List.mem_cons_self)
    rw [judge, List.forall_mem_cons]
    exact ⟨⟨fatal, warnings⟩, ih next fun other member => plain other (List.mem_cons_of_mem _ member)⟩

end Run

theorem plain_reportOf {judgements : List Judgement} (plain : ∀ judgement ∈ judgements,
    (∀ finding, judgement.verdict.fatal = some finding → finding.Plain) ∧
      ∀ finding ∈ judgement.verdict.warnings, finding.Plain) :
    ∀ diagnostic ∈ (reportOf judgements).errors.toList ++ (reportOf judgements).warnings.toList,
      diagnostic.reason.Plain := by
  rw [List.forall_mem_append]
  constructor
  · intro diagnostic member
    obtain ⟨judgement, inside, found⟩ := List.mem_filterMap.1 member
    obtain ⟨finding, fatal, rfl⟩ := Option.map_eq_some_iff.1 found
    exact (plain judgement inside).1 finding fatal
  · intro diagnostic member
    obtain ⟨judgement, inside, found⟩ := List.mem_flatMap.1 member
    obtain ⟨finding, warned, rfl⟩ := List.mem_map.1 found
    exact (plain judgement inside).2 finding warned

/-- What a report lists of a line that is no record quotes no line feed, whatever the records hold. -/
theorem malformed_plain {validator : Validator} {source : String} {chunks : List Chunk} {diagnostic : Diagnostic}
    {error : RecordError}
    (listed : diagnostic ∈ (validate validator source chunks).value.errors.toList ++
      (validate validator source chunks).value.warnings.toList)
    (malformed : diagnostic.reason = .malformed error) : diagnostic.reason.Plain := by
  rw [validate_value, entries, readings_entriesFrom, List.mem_append, Array.mem_toList_iff, Array.mem_toList_iff] at listed
  obtain ⟨_, content, _, _, ⟨other, same, read, _⟩ | ⟨never, _⟩⟩ := (judged validator none _).located listed
  · rw [same]
    exact RecordError.plain_of_readLine? read
  · exact absurd malformed (never error)

/-- Every report has its rows, and each shown finding one of them. A row takes more than one line only by
the line feeds that its finding quotes. A line that is no record gives it none, whatever it holds, and a
record gives it none without one in its primitive, its context, its identifier or a suggested label. -/
theorem validate_laidOut (validator : Validator) (source : String) (chunks : List Chunk) (limit : Nat) :
    let report := (validate validator source chunks).value
    report.LaidOut limit ∧
      (∀ diagnostic ∈ report.shown limit,
        lineFeeds diagnostic.reason.text = (diagnostic.reason.quoted.map lineFeeds).sum ∧
          ∀ error, diagnostic.reason = .malformed error → diagnostic.reason.Plain) ∧
      (validator.Plain → (∀ reading ∈ readings (entries chunks), ∀ record, reading.result = .ok record → record.Plain) →
        lineFeeds (report.text limit) = report.rowCount limit ∧ pieces (report.text limit) = report.lines limit ++ [""]) := by
  intro report
  have layout := report.laidOut limit
  have listed : ∀ diagnostic ∈ report.shown limit, diagnostic ∈ report.errors.toList ++ report.warnings.toList := by
    intro diagnostic member
    rw [List.mem_append]
    exact (List.mem_append.1 member).imp List.mem_of_mem_take List.mem_of_mem_take
  refine ⟨layout, ?_, ?_⟩
  · intro diagnostic member
    exact ⟨diagnostic.reason.lineFeeds_text, fun error => malformed_plain (listed diagnostic member)⟩
  intro labels records
  have plain : ∀ reading ∈ readings (entries chunks), reading.Plain := by
    intro reading member
    refine ⟨records reading member, ?_⟩
    intro error failed
    rw [entries, readings_entriesFrom] at member
    obtain ⟨_, content, _, _, read⟩ := mem_numbered.1 member
    rw [failed] at read
    exact RecordError.plain_of_readLine? read
  have start : ∀ state, (none : Option String) = some state → lineFeeds state = 0 := by
    intro state held
    cases held
  have findings := plain_reportOf (plain_judge labels start plain)
  rw [← validate_value validator source] at findings
  have shown : ∀ diagnostic ∈ report.shown limit, lineFeeds diagnostic.reason.text = 0 :=
    fun diagnostic member => (findings diagnostic (listed diagnostic member)).text
  have lines := layout.oneLine.2 shown
  have count := congrArg List.length lines
  rw [Text.length_pieces, List.length_append, List.length_singleton, layout.rows] at count
  exact ⟨Nat.succ.inj count, lines⟩

/-- A vocabulary of one state. -/
def reader : Validator := { vocabulary := .ofStates [.ofPair "read" "fs"] }

/-- A record with an unknown primitive, and a line that is no record. -/
def rejectedLog : List Char := "\x7b\"primitive\":\"rm\"\x7d\n[7]".toList

/-- Two errors of which one is shown, on lines of their own. -/
theorem validate_laidOut_rejected :
    let report := (validate reader "log" [.bytes (Utf8.encode rejectedLog)]).value
    report.rowCount 1 = 15 ∧ lineFeeds (report.text 1) = 15 ∧ pieces (report.text 1) = report.lines 1 ++ [""] := by
  intro report
  have rows : report.rowCount 1 = 15 := by decide +kernel
  have labels : reader.Plain := ⟨by decide +kernel, by decide +kernel⟩
  have each : ∀ reading ∈ readings (entries [.bytes (Utf8.encode rejectedLog)]), reading.result.toOption.all (fun record =>
      lineFeeds (record.primitive.getD "") = 0 ∧ lineFeeds (record.context.getD "") = 0 ∧
        lineFeeds (record.stateId.getD "") = 0) = true := by
    decide +kernel
  have plain : ∀ reading ∈ readings (entries [.bytes (Utf8.encode rejectedLog)]), ∀ record,
      reading.result = .ok record → record.Plain := by
    intro reading member record found
    have facts := each reading member
    rw [found] at facts
    obtain ⟨primitive, context, stateId⟩ := of_decide_eq_true facts
    exact ⟨primitive, context, stateId⟩
  obtain ⟨_, _, oneLine⟩ := validate_laidOut reader "log" [.bytes (Utf8.encode rejectedLog)] 1
  obtain ⟨count, lines⟩ := oneLine labels plain
  exact ⟨rows, count.trans rows, lines⟩

/-- A record whose primitive goes on with the text of another finding. -/
def forgedLine : List Char :=
  "\x7b\"primitive\":\"x. Available: read, ...\\n  2. Line 7: Unknown primitive: rm\"\x7d".toList

/-- The log has one line and the report one error, but its text lists a second one on a line of its own. -/
theorem forged_finding :
    let report := (validate reader "log" [.bytes (Utf8.encode forgedLine)]).value
    report.total = 1 ∧ report.errors.size = 1 ∧ report.warnings.size = 0 ∧ report.rowCount 10 = 14 ∧
      lineFeeds (report.text 10) = 15 ∧
      "  2. Line 7: Unknown primitive: rm. Available: read, ..." ∈ pieces (report.text 10) := by
  intro report
  have counts : report.total = 1 ∧ report.errors.size = 1 ∧ report.warnings.size = 0 ∧ report.rowCount 10 = 14 ∧
      ((report.shown 10).map fun diagnostic => lineFeeds diagnostic.reason.text).sum = 1 := by
    decide +kernel
  have row : "  2. Line 7: Unknown primitive: rm. Available: read, ..." ∈ (report.lines 10).flatMap pieces := by
    decide +kernel
  have layout := report.laidOut 10
  obtain ⟨total, errors, warnings, rows, quoted⟩ := counts
  refine ⟨total, errors, warnings, rows, ?_, ?_⟩
  · rw [layout.feeds, rows, quoted]
  · rw [layout.physical]
    exact List.mem_append_left _ row

end Stream

end StateAudit
