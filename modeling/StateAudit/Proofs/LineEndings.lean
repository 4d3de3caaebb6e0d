import StateAudit.Proofs.InterruptedStreams
import StateAudit.Proofs.JsonBlanks

/-! How lines end. A line is read with its terminator, and neither a missing line feed at the end of
a log nor a carriage return before each one changes what is read: JSON ends at the blanks behind it,
and what a terminator is put behind is no shorter or longer a text, no better or worse UTF-8. -/

namespace StateAudit

/-- The same error, without the place and the words of a syntax error. -/
def RecordError.unworded : RecordError → RecordError
  | .json _ => .json ⟨.endInValue, ⟨0, 0⟩⟩
  | error => error

def Finding.unworded : Finding → Finding
  | .malformed error => .malformed error.unworded
  | finding => finding

def Diagnostic.unworded (diagnostic : Diagnostic) : Diagnostic := { diagnostic with reason := diagnostic.reason.unworded }

def Report.unworded (report : Report) : Report := report.map Diagnostic.unworded

def Verdict.unworded (verdict : Verdict) : Verdict where
  fatal := verdict.fatal.map Finding.unworded
  warnings := verdict.warnings.map Finding.unworded

theorem Finding.unworded_eq {finding : Finding} (other : ∀ error, finding ≠ .malformed error) :
    finding.unworded = finding := by
  cases finding with
  | malformed error => exact absurd rfl (other error)
  | _ => rfl

theorem Validator.unworded_validate (validator : Validator) (record : Record) (previous : Option String) :
    (validator.validate record previous).1.unworded = (validator.validate record previous).1 := by
  have fatal : (validator.fatal? record).map Finding.unworded = validator.fatal? record := by
    cases found : validator.fatal? record with
    | none => rfl
    | some finding => exact congrArg some (Finding.unworded_eq (fatal_cases validator record found).2.1)
  have warned : (validator.validate record previous).1.warnings.map Finding.unworded =
      (validator.validate record previous).1.warnings := by
    obtain ⟨logged, source, cause, kinds⟩ := warnings_sublist validator record previous
    conv_rhs => rw [← List.map_id (validator.validate record previous).1.warnings]
    refine List.map_congr_left fun finding member => ?_
    have kind := kinds.subset member
    simp only [List.mem_cons, List.not_mem_nil, or_false] at kind
    rcases kind with rfl | rfl <;> rfl
  rw [Verdict.unworded, warned, fatal_validate, fatal, ← fatal_validate validator record previous]

theorem Record.parse_blanks {blanks : List Char} (blank : Json.Blank blanks) (text : List Char) :
    (parse (text ++ blanks)).mapError RecordError.unworded = (parse text).mapError RecordError.unworded := by
  obtain ⟨value, plain, again⟩ | ⟨error, other, plain, again⟩ := Json.parse_blanks blank text
  · rw [parse, parse, plain, again]
  · rw [parse, parse, plain, again]
    rfl

namespace Utf8

/-- Only a character of one byte ends in an ASCII byte. -/
theorem encodeChar_concat {char : Char} {front : Bytes} {byte : UInt8} (form : encodeChar char = front ++ [byte])
    (ascii : byte < 0x80) : front = [] := by
  have alone : encodeChar char = [byte] := encodeChar_of_mem (by simp [form]) ascii
  have size := congrArg List.length (form.symm.trans alone)
  rw [List.length_append, List.length_singleton] at size
  exact List.length_eq_zero_iff.1 (Nat.succ.inj size)

theorem encode_concat {whole : List Char} {bytes : Bytes} {byte : UInt8} (written : encode whole = bytes ++ [byte])
    (ascii : byte < 0x80) : ∃ text, encode text = bytes := by
  obtain rfl | ⟨text, char, rfl⟩ := List.eq_nil_or_concat' whole
  · exact absurd written.symm (by simp [encode])
  · have last : encode [char] = encodeChar char := List.append_nil _
    rw [encode_append, last] at written
    obtain ⟨behind, first, form⟩ | ⟨front, first, form⟩ := List.append_eq_append_iff.1 written
    · rw [encodeChar_concat form ascii, List.append_nil] at first
      exact ⟨text, first.symm⟩
    · have size : 1 = front.length + char.utf8Size := by
        rw [← String.length_utf8EncodeChar, ← encodeChar, ← List.length_append, ← form, List.length_singleton]
      obtain rfl : front = [] := by
        have := char.utf8Size_pos
        exact List.length_eq_zero_iff.1 (by omega)
      exact ⟨text, first.trans (List.append_nil _)⟩

/-- A byte behind a text that is a character of its own. -/
theorem decode?_concat (bytes : Bytes) {byte : UInt8} (ascii : byte < 0x80) :
    decode? (bytes ++ [byte]) = (decode? bytes).map (· ++ [Char.ofNat byte.toNat]) := by
  cases read : decode? bytes with
  | some text =>
    have last : encode [Char.ofNat byte.toNat] = [byte] := (List.append_nil _).trans (encodeChar_ascii ascii)
    rw [Option.map_some, decode?_eq_some, encode_append, decode?_eq_some.1 read, last]
  | none =>
    rw [Option.map_none, Option.eq_none_iff_forall_ne_some]
    intro whole decoded
    obtain ⟨text, front⟩ := encode_concat (decode?_eq_some.1 decoded) ascii
    rw [decode?_eq_some.2 front] at read
    cases read

end Utf8

namespace Stream

def Reading.unworded (reading : Reading) : Reading :=
  { reading with result := reading.result.mapError RecordError.unworded }

/-- What a line holds, up to the wording of a syntax error. -/
def told? (content : Bytes) : Option (Except RecordError Record) :=
  (readLine? content).map (Except.mapError RecordError.unworded)

theorem told?_concat (content : Bytes) {byte : UInt8} (terminator : byte = 10 ∨ byte = 13) :
    told? (content ++ [byte]) = told? content := by
  have ascii : byte < 0x80 := by rcases terminator with rfl | rfl <;> decide
  have blank : Json.Blank [Char.ofNat byte.toNat] ∧ Text.isBlank (Char.ofNat byte.toNat) = true := by
    simp only [Json.Blank, List.mem_singleton, forall_eq]
    rcases terminator with rfl | rfl <;> decide
  rw [told?, told?, readLine?, readLine?, Utf8.decode?_concat content ascii]
  cases Utf8.decode? content with
  | none => rfl
  | some text =>
    simp only [Option.map_some, List.all_append, List.all_cons, List.all_nil, blank.2, Bool.and_true]
    split
    · rfl
    · exact congrArg some (Record.parse_blanks blank.1 text)

/-- The content with a carriage return before every line feed. -/
def crlf (content : Bytes) : Bytes := content.flatMap fun byte => if byte = 10 then [13, 10] else [byte]

theorem crlf_append (first second : Bytes) : crlf (first ++ second) = crlf first ++ crlf second := List.flatMap_append

theorem crlf_flatten (lines : List Bytes) : crlf lines.flatten = (lines.map crlf).flatten := by
  induction lines with
  | nil => rfl
  | cons line rest ih => rw [List.flatten_cons, crlf_append, ih, List.map_cons, List.flatten_cons]

theorem crlf_free {content : Bytes} (free : 10 ∉ content) : crlf content = content := by
  induction content with
  | nil => rfl
  | cons byte rest ih =>
    simp only [List.mem_cons, not_or] at free
    rw [crlf, List.flatMap_cons, if_neg (Ne.symm free.1), ← crlf, ih free.2]
    rfl

theorem Delimited.line_cases {content : Bytes} {lines : List Bytes} (cut : Delimited content lines) {line : Bytes}
    (member : line ∈ lines) : 10 ∉ line ∨ ∃ body, 10 ∉ body ∧ line = body ++ [10] := by
  have filled : line ≠ [] := fun empty => cut.inhabited (empty ▸ member)
  have free := cut.unbroken line member
  have parts := List.dropLast_append_getLast filled
  by_cases fed : line.getLast filled = 10
  · exact .inr ⟨line.dropLast, free, by rw [← fed, parts]⟩
  · refine .inl fun inside => ?_
    rw [← parts, List.mem_append, List.mem_singleton] at inside
    exact inside.elim free (fed ∘ Eq.symm)

theorem Delimited.crlf {content : Bytes} {lines : List Bytes} (cut : Delimited content lines) :
    Delimited (Stream.crlf content) (lines.map Stream.crlf) := by
  have shape : ∀ line ∈ lines, Stream.crlf line = line ∧ 10 ∉ line ∨
      ∃ body, 10 ∉ body ∧ line = body ++ [10] ∧ Stream.crlf line = body ++ [13, 10] := by
    intro line member
    obtain free | ⟨body, free, rfl⟩ := cut.line_cases member
    · exact .inl ⟨crlf_free free, free⟩
    · exact .inr ⟨body, free, rfl, by rw [crlf_append, crlf_free free]; rfl⟩
  refine ⟨by rw [← crlf_flatten, cut.covers], ?_, ?_, ?_⟩
  · intro other member
    rw [← List.map_dropLast, List.mem_map] at member
    obtain ⟨line, early, rfl⟩ := member
    have fed := cut.ended line early
    obtain ⟨_, free⟩ | ⟨body, _, _, same⟩ := shape line (List.mem_of_mem_dropLast early)
    · exact absurd (List.mem_of_getLast? fed) free
    · rw [same, List.getLast?_append_of_ne_nil _ (List.cons_ne_nil _ _)]
      rfl
  · intro other member
    obtain ⟨line, inside, rfl⟩ := List.mem_map.1 member
    obtain ⟨same, free⟩ | ⟨body, free, _, same⟩ := shape line inside
    · rw [same]
      exact fun early => free (List.mem_of_mem_dropLast early)
    · rw [same, List.dropLast_append_of_ne_nil (List.cons_ne_nil _ _)]
      simpa using free
  · intro empty
    obtain ⟨line, inside, none⟩ := List.mem_map.1 empty
    obtain ⟨same, _⟩ | ⟨body, _, _, same⟩ := shape line inside
    · obtain rfl : line = [] := same.symm.trans none
      exact cut.inhabited inside
    · simp [same] at none

theorem contentLines_crlf (content : Bytes) : contentLines (crlf content) = (contentLines content).map crlf :=
  (contentLines_delimited _).unique (contentLines_delimited content).crlf

theorem told?_crlf {content line : Bytes} (member : line ∈ contentLines content) : told? (crlf line) = told? line := by
  obtain free | ⟨body, free, rfl⟩ := (contentLines_delimited content).line_cases member
  · rw [crlf_free free]
  · have ending : crlf (body ++ [10]) = (body ++ [13]) ++ [10] := by
      rw [crlf_append, crlf_free free, List.append_assoc]
      rfl
    rw [ending, told?_concat _ (.inl rfl), told?_concat _ (.inr rfl), told?_concat _ (.inl rfl)]

/-- A last line that lacks its line feed gets one. -/
theorem contentLines_fed {content : Bytes} (unfed : content.getLast? ≠ some 10) (nonempty : content ≠ []) :
    ∃ front last, contentLines content = front ++ [last] ∧ contentLines (content ++ [10]) = front ++ [last ++ [10]] := by
  have cut := contentLines_delimited content
  obtain none | ⟨front, last, same⟩ := List.eq_nil_or_concat' (contentLines content)
  · rw [none] at cut
    exact absurd cut.covers.symm nonempty
  · rw [same] at cut
    have filled : last ≠ [] := fun empty => cut.inhabited (by simp [empty])
    have free : 10 ∉ last := by
      obtain free | ⟨body, _, rfl⟩ := cut.line_cases (List.mem_append_right front List.mem_cons_self)
      · exact free
      · refine absurd ?_ unfed
        rw [← cut.covers, List.flatten_append, List.flatten_singleton, ← List.append_assoc, List.getLast?_concat]
    have ended := cut.ended
    rw [List.dropLast_concat] at ended
    have fed : Delimited (content ++ [10]) (front ++ [last ++ [10]]) := by
      refine ⟨?_, ?_, ?_, ?_⟩
      · rw [← cut.covers]
        simp only [List.flatten_append, List.flatten_singleton, List.append_assoc]
      · rwa [List.dropLast_concat]
      · intro line member
        obtain early | final := List.mem_append.1 member
        · exact cut.unbroken line (List.mem_append_left _ early)
        · obtain rfl := List.mem_singleton.1 final
          rwa [List.dropLast_concat]
      · intro empty
        obtain early | final := List.mem_append.1 empty
        · exact cut.inhabited (List.mem_append_left _ early)
        · simp at final
    exact ⟨front, last, same, (contentLines_delimited _).unique fed⟩

theorem numbered_told (number : Nat) {lines others : List Bytes} (same : lines.map told? = others.map told?) :
    (numbered number lines).map Reading.unworded = (numbered number others).map Reading.unworded := by
  induction lines generalizing number others with
  | nil =>
    obtain rfl := List.map_eq_nil_iff.1 same.symm
    rfl
  | cons line rest ih =>
    cases others with
    | nil => cases same
    | cons other others =>
      obtain ⟨first, later⟩ := List.cons.inj same
      have reading (content : Bytes) : ((readLine? content).map (Reading.mk (number + 1))).toList.map Reading.unworded =
          ((told? content).map (Reading.mk (number + 1))).toList := by
        rw [told?]
        cases readLine? content <;> rfl
      rw [numbered_cons, numbered_cons, List.map_append, List.map_append, reading, reading, first, ih (number + 1) later]

/-- The content with its last line feed, or with a carriage return before every one. -/
inductive Reended (content : Bytes) : Bytes → Prop
  | fed : content.getLast? ≠ some 10 → Reended content (content ++ [10])
  | crlf : Reended content (crlf content)

theorem numbered_reended {content other : Bytes} (reended : Reended content other) :
    (numbered 0 (contentLines other)).map Reading.unworded = (numbered 0 (contentLines content)).map Reading.unworded := by
  cases reended with
  | crlf =>
    refine numbered_told 0 ?_
    rw [contentLines_crlf, List.map_map]
    exact List.map_congr_left fun line member => told?_crlf member
  | fed unfed =>
    by_cases empty : content = []
    · subst empty
      have blank : readLine? [10] = none := by decide +kernel
      have line : contentLines [10] = [[10]] := rfl
      rw [List.nil_append, line, numbered_cons, blank]
      rfl
    · obtain ⟨front, last, before, after⟩ := contentLines_fed unfed empty
      refine numbered_told 0 ?_
      rw [before, after, List.map_append, List.map_append, List.map_singleton, List.map_singleton,
        told?_concat last (.inl rfl)]

theorem reportOf_unworded (validator : Validator) (previous : Option String) (readings : List Reading) :
    reportOf (judge validator previous (readings.map Reading.unworded)) =
      (reportOf (judge validator previous readings)).unworded := by
  have verdict (state : Option String) (reading : Reading) :
      reading.unworded.verdict validator state = (reading.verdict validator state).unworded := by
    obtain ⟨line, result⟩ := reading
    cases result with
    | ok record => exact (validator.unworded_validate record state).symm
    | error error => rfl
  have next (state : Option String) (reading : Reading) :
      reading.unworded.next validator state = reading.next validator state := by
    obtain ⟨line, result⟩ := reading
    cases result <;> rfl
  have diagnose (reading : Reading) (finding : Finding) :
      reading.unworded.diagnose finding.unworded = (reading.diagnose finding).unworded := by
    obtain ⟨line, result⟩ := reading
    cases result <;> rfl
  rw [judge_map validator previous Reading.unworded Verdict.unworded verdict next]
  refine reportOf_map (fun judgement => ⟨judgement.reading.unworded, judgement.verdict.unworded⟩) Diagnostic.unworded
    ?_ ?_ ?_ _
  · intro judgement
    exact Option.isNone_map
  · intro judgement
    simp only [Judgement.error?, Verdict.unworded, Option.map_map, Function.comp_def, diagnose]
  · intro judgement
    simp only [Judgement.warnings, Verdict.unworded, List.map_map, Function.comp_def, diagnose]

/-- How lines end plays no part in a report, but for the words of syntax errors, and none at all in
an aggregate. -/
theorem reended_agree (validator : Validator) (aggregate : Aggregate) (source : String) {contents others : List Bytes}
    (reended : Reended contents.flatten others.flatten) :
    (validate validator source (others.map .bytes)).value.unworded =
        (validate validator source (contents.map .bytes)).value.unworded ∧
      (validate validator source (others.map .bytes)).problems = [] ∧
      (validate validator source (contents.map .bytes)).problems = [] ∧
      analyze aggregate source (others.map .bytes) = analyze aggregate source (contents.map .bytes) := by
  have same := numbered_reended reended
  have problems (contents : List Bytes) : (validate validator source (contents.map .bytes)).problems = [] := by
    rw [validate_lines, interruption_bytes]
  refine ⟨?_, problems others, problems contents, ?_⟩
  · rw [validate_bytes, validate_bytes, ← reportOf_unworded, ← reportOf_unworded, same]
  · have observed : observations (contentLines others.flatten) = observations (contentLines contents.flatten) := by
      have found (reading : Reading) : reading.unworded.observation = reading.observation := by
        obtain ⟨line, result⟩ := reading
        cases result <;> rfl
      have told := congrArg (List.map Reading.observation) same
      simpa only [List.map_map, Function.comp_def, found, map_observation_numbered] using told
    rw [analyze_bytes, analyze_bytes, observed]

/-- A whole record, and a second one that is cut off without a line feed. -/
def tornLog : Bytes :=
  Utf8.encode "\x7b\"primitive\":\"read\",\"context\":\"fs\"\x7d\n\x7b\"primitive\":".toList

theorem reended_torn :
    let validator : Validator := { vocabulary := .ofStates [.ofPair "read" "fs"] }
    let report (content : Bytes) := (validate validator "log" ([content].map .bytes)).value
    Reended tornLog (tornLog ++ [10]) ∧ Reended tornLog (crlf tornLog) ∧
      (report tornLog).errors.map (·.reason.text) ≠ (report (tornLog ++ [10])).errors.map (·.reason.text) ∧
      (report tornLog).valid = 1 ∧ (report tornLog).invalid = 1 ∧
      (report (tornLog ++ [10])).unworded = (report tornLog).unworded ∧
      (report (crlf tornLog)).unworded = (report tornLog).unworded := by
  intro validator report
  have fed : Reended tornLog (tornLog ++ [10]) := .fed (by decide +kernel)
  have agree {other : Bytes} (reended : Reended tornLog other) : (report other).unworded = (report tornLog).unworded := by
    have whole : Reended [tornLog].flatten [other].flatten := by simpa using reended
    exact (reended_agree validator (.ofConfig {}) "log" whole).1
  exact ⟨fed, .crlf, by decide +kernel, by decide +kernel, by decide +kernel, agree fed, agree .crlf⟩

end Stream

end StateAudit
