import StateAudit.Proofs.JsonRoundTrip
import StateAudit.Proofs.StreamReadings

/-! A record that is written as its object and read again. It is the record it was but for the
doubles, each of which is found as what its text is read as: a double of the same sign, seven places
off at most, and the same one where its digits and the power of ten of the last are doubles. -/

namespace StateAudit

namespace Binary64

/-- The text has no more digits than a double can hold, and a power of ten that is a double. -/
def Brief (x : Binary64) : Prop :=
  (Json.Numeral.carried Json.doubleLayout x.code).1 ≤ 2 ^ 53 ∧
    -22 ≤ (Json.Numeral.carried Json.doubleLayout x.code).2 ∧
    (Json.Numeral.carried Json.doubleLayout x.code).2 ≤ 22

instance (x : Binary64) : Decidable x.Brief := inferInstanceAs (Decidable (_ ∧ _ ∧ _))

theorem sign_signed {x : Binary64} (unsigned : x.negative = false) (negative : Bool) :
    (Json.Numeral.signed negative x).negative = negative ∧ (Json.Numeral.signed negative x).code = x.code := by
  cases negative with
  | false => exact ⟨unsigned, rfl⟩
  | true =>
    have parts := neg_eq x
    rw [unsigned] at parts
    exact parts

section Reread
variable {x : Binary64} (finite : x.isFinite = true)

include finite

/-- What the text is read as has the sign, and the magnitude that the significand scales to. -/
theorem reread_scaled : ∃ y, Json.Numeral.scale? (Json.Numeral.carried Json.doubleLayout x.code).1
      (Json.Numeral.carried Json.doubleLayout x.code).2 = some y ∧
    x.reread.negative = x.negative ∧ x.reread.code = y.code := by
  obtain ⟨⟨y, scaled, same⟩, _⟩ := Json.Parser.reread_spec finite
  exact ⟨y, scaled, same ▸ sign_signed (Json.Numeral.unsigned_scale? scaled) x.negative⟩

theorem reread_sign : x.reread.negative = x.negative := by
  obtain ⟨_, _, sign, _⟩ := reread_scaled finite
  exact sign

theorem reread_zero (zero : x.code = 0) : x.reread = x := by
  obtain ⟨y, scaled, sign, code⟩ := reread_scaled finite
  have none : (Json.Numeral.scale? (Json.Numeral.carried Json.doubleLayout 0).1
      (Json.Numeral.carried Json.doubleLayout 0).2).all (·.code == 0) = true := by
    decide +kernel
  rw [zero] at scaled
  rw [scaled, Option.all_some, beq_iff_eq] at none
  exact eq_of_parts sign (code.trans (none.trans zero.symm))

theorem reread_brief (brief : x.Brief) : x.reread = x := by
  obtain zero | inner := Nat.eq_zero_or_pos x.code
  · exact reread_zero finite zero
  · have bounded := isFinite_iff.1 finite
    have double : (2 : Nat) ^ 53 = 2 * binade := by decide
    obtain ⟨y, scaled, sign, code⟩ := reread_scaled finite
    obtain ⟨_, _, enclosed⟩ := Json.Numeral.carried_spec inner bounded
    obtain ⟨z, found, _, nearest⟩ := Json.Numeral.scale?_exact bounded (double ▸ brief.1) brief.2 enclosed
    obtain rfl := Option.some.inj (scaled.symm.trans found)
    exact eq_of_parts sign (code.trans nearest)

theorem reread_near : x.reread.code ≤ x.code + 7 ∧ x.code ≤ x.reread.code + 7 := by
  obtain zero | inner := Nat.eq_zero_or_pos x.code
  · rw [reread_zero finite zero]
    omega
  · have bounded := isFinite_iff.1 finite
    have word : (10 : Nat) ^ 17 < Json.Numeral.wordLimit := by decide
    obtain ⟨y, scaled, _, code⟩ := reread_scaled finite
    obtain ⟨⟨positive, most⟩, least, enclosed⟩ := Json.Numeral.carried_spec inner bounded
    rw [code]
    exact Json.Numeral.scale?_within bounded positive (Nat.lt_of_le_of_lt most word) (by omega) enclosed scaled

theorem isFinite_reread : x.reread.isFinite = true := by
  have found := (Json.Parser.reread_spec finite).2 0 [] (by rintro char ⟨⟩)
  cases Json.Parser.yields_value 0 _ _ _ found with
  | number readable => exact readable

end Reread

end Binary64

namespace Json

mutual
/-- The doubles of a value, in the order in which they are written. -/
def doubles : Json → List Binary64
  | .null => []
  | .bool _ => []
  | .number (.whole _) => []
  | .number (.double value) => [value]
  | .string _ => []
  | .array items => doublesItems items
  | .object members => doublesMembers members
termination_by structural value => value

def doublesItems : List Json → List Binary64
  | [] => []
  | item :: others => item.doubles ++ doublesItems others
termination_by structural items => items

def doublesMembers : List (String × Json) → List Binary64
  | [] => []
  | (_, value) :: others => value.doubles ++ doublesMembers others
termination_by structural members => members
end

mutual
theorem reread_eq_self : (value : Json) → (value.reread = value ↔ ∀ x ∈ value.doubles, x.reread = x)
  | .null => by simp [reread, doubles]
  | .bool _ => by simp [reread, doubles]
  | .number (.whole _) => by simp [reread, doubles, Number.reread]
  | .number (.double _) => by simp [reread, doubles, Number.reread]
  | .string _ => by simp [reread, doubles]
  | .array items => by simp [reread, doubles, rereadItems_eq_self items]
  | .object members => by simp [reread, doubles, rereadMembers_eq_self members]

theorem rereadItems_eq_self : (items : List Json) → (rereadItems items = items ↔ ∀ x ∈ doublesItems items, x.reread = x)
  | [] => by simp [rereadItems, doublesItems]
  | item :: others => by
    simp [rereadItems, doublesItems, reread_eq_self item, rereadItems_eq_self others, or_imp, forall_and]

theorem rereadMembers_eq_self : (members : List (String × Json)) →
    (rereadMembers members = members ↔ ∀ x ∈ doublesMembers members, x.reread = x)
  | [] => by simp [rereadMembers, doublesMembers]
  | (_, value) :: others => by
    simp [rereadMembers, doublesMembers, reread_eq_self value, rereadMembers_eq_self others, or_imp, forall_and]
end

theorem get?_reread (members : Members) (key : String) :
    Dictionary.get? (rereadMembers members) key = (Dictionary.get? members key).map reread := by
  induction members with
  | nil => rfl
  | cons member others ih =>
    obtain ⟨other, value⟩ := member
    rw [rereadMembers, Dictionary.get?_cons, Dictionary.get?_cons, ih]
    split <;> rfl

theorem doublesItems_eq (items : List Json) : doublesItems items = items.flatMap doubles := by
  induction items with
  | nil => rfl
  | cons item others ih => rw [doublesItems, ih, List.flatMap_cons]

theorem doublesMembers_eq (members : Members) : doublesMembers members = members.flatMap (·.2.doubles) := by
  induction members with
  | nil => rfl
  | cons member others ih => rw [doublesMembers, ih, List.flatMap_cons]

theorem mem_doublesMembers {members : Members} {key : String} {value : Json}
    (found : Dictionary.get? members key = some value) {x : Binary64} (member : x ∈ value.doubles) :
    x ∈ doublesMembers members := by
  induction members with
  | nil => cases found
  | cons entry others ih =>
    obtain ⟨other, held⟩ := entry
    rw [Dictionary.get?_cons] at found
    rw [doublesMembers]
    split at found
    · obtain rfl := Option.some.inj found
      exact List.mem_append_left _ member
    · exact List.mem_append_right _ (ih found)

theorem isFinite_doubles {depth : Nat} {value : Json} (readable : Readable depth value) :
    ∀ x ∈ value.doubles, x.isFinite = true := by
  induction readable with
  | null | bool _ | string _ => exact List.forall_mem_nil _
  | @number _ number readable =>
    cases number with
    | whole _ => exact List.forall_mem_nil _
    | double x => exact List.forall_mem_singleton.2 readable
  | array _ ih =>
    intro x member
    rw [doubles, doublesItems_eq] at member
    obtain ⟨item, inside, within⟩ := List.mem_flatMap.1 member
    exact ih item inside x within
  | object _ _ ih =>
    intro x member
    rw [doubles, doublesMembers_eq] at member
    obtain ⟨entry, inside, within⟩ := List.mem_flatMap.1 member
    exact ih entry inside x within

end Json

namespace Record

/-- The record of the same object with every double replaced by what its text is read as. -/
def reread (record : Record) : Record :=
  let members := Json.rereadMembers record.members
  { record with
    stateId := textField members "state_id"
    message := (outcome members).2
    performance := measurements members
    members }

theorem stringField_reread (members : Json.Members) (key : String) :
    stringField (Json.rereadMembers members) key = stringField members key := by
  rw [stringField, stringField, Json.get?_reread]
  cases members.get? key with
  | none => rfl
  | some value => cases value <;> rfl

/-- Neither layout has its status in a number. -/
theorem status_reread (members : Json.Members) :
    (outcome (Json.rereadMembers members)).1 = (outcome members).1 := by
  have flat : (flatOutcome (Json.rereadMembers members)).1 = (flatOutcome members).1 := by
    simp only [flatOutcome, Json.get?_reread]
    cases members.get? "success" with
    | none => rfl
    | some value => cases value <;> rfl
  have nested (result : Json.Members) : (nestedOutcome (Json.rereadMembers result)).1 = (nestedOutcome result).1 := by
    simp only [nestedOutcome, Json.get?_reread]
    cases result.get? "status" with
    | none => rfl
    | some value => cases value <;> rfl
  simp only [outcome, Json.get?_reread]
  cases members.get? "result" with
  | none => exact flat
  | some value =>
    cases value with
    | object result => exact nested result
    | null | bool _ | number _ | string _ | array _ => exact flat

/-- What is found for a measurement: itself, or what the text of a double is read as. -/
def Remeasured (doubles : List Binary64) (found measured : Option Binary64) : Prop :=
  found = measured ∨ ∃ x ∈ doubles, measured = some x ∧ found = some x.reread

theorem Remeasured.or {doubles : List Binary64} {found measured other second : Option Binary64}
    (first : Remeasured doubles found measured) (later : Remeasured doubles other second) :
    Remeasured doubles (found.or other) (measured.or second) := by
  obtain rfl | ⟨x, member, rfl, rfl⟩ := first
  · cases found with
    | none => exact later
    | some x => exact .inl rfl
  · exact .inr ⟨x, member, rfl, rfl⟩

theorem numberField_reread (members : Json.Members) (key : String) :
    Remeasured (Json.doublesMembers members) (numberField (Json.rereadMembers members) key) (numberField members key) := by
  have each := fun x => @Json.mem_doublesMembers members key (.number (.double x))
  rw [numberField, numberField, Json.get?_reread]
  cases found : Dictionary.get? members key with
  | none => exact .inl rfl
  | some value =>
    match value with
    | .number (.double x) => exact .inr ⟨x, each x found (List.mem_singleton_self x), rfl, rfl⟩
    | .number (.whole _) | .null | .bool _ | .string _ | .array _ | .object _ => exact .inl rfl

theorem measurements_reread (members : Json.Members) :
    let found := measurements (Json.rereadMembers members)
    let measured := measurements members
    Remeasured (Json.doublesMembers members) found.durationMs measured.durationMs ∧
      Remeasured (Json.doublesMembers members) found.cpuUsage measured.cpuUsage ∧
      Remeasured (Json.doublesMembers members) found.memoryMb measured.memoryMb := by
  have duration := numberField_reread members "duration_ms"
  have absent : Remeasured (Json.doublesMembers members) none none := .inl rfl
  simp only [measurements, Json.get?_reread]
  cases held : Dictionary.get? members "performance" with
  | none => exact ⟨duration, absent, absent⟩
  | some value =>
    cases value with
    | null | bool _ | number _ | string _ | array _ => exact ⟨duration, absent, absent⟩
    | object taken =>
      have field (key : String) : Remeasured (Json.doublesMembers members)
          (numberField (Json.rereadMembers taken) key) (numberField taken key) := by
        obtain same | ⟨x, member, measured, found⟩ := numberField_reread taken key
        · exact .inl same
        · exact .inr ⟨x, Json.mem_doublesMembers held member, measured, found⟩
      exact ⟨(field "duration_ms").or duration, field "cpu_usage", field "memory_mb"⟩

theorem ofMembers_reread {members : Json.Members} {record : Record} (read : ofMembers members = .ok record) :
    ofMembers (Json.rereadMembers members) = .ok record.reread := by
  obtain ⟨primitive, context, same⟩ := ofMembers_eq_ok read
  rw [same]
  simp only [ofMembers, stringField_reread, primitive, context, reread, status_reread]

theorem json_of_parse {line : List Char} {record : Record} (read : Record.parse line = .ok record) :
    Json.parse line = .ok record.raw ∧ ofMembers record.members = .ok record := by
  rw [Record.parse] at read
  split at read
  next value parsed =>
    cases value with
    | object members =>
      have same := members_ofMembers read
      rw [raw, same]
      exact ⟨parsed, read⟩
    | null | bool _ | number _ | string _ | array _ => cases read
  next => cases read

theorem reread_eq_iff {record : Record} (read : ofMembers record.members = .ok record) :
    record.reread = record ↔ ∀ x ∈ record.raw.doubles, x.reread = x := by
  have raws : record.raw.reread = record.reread.raw := rfl
  rw [← Json.reread_eq_self, raws]
  constructor
  · intro same
    rw [same]
  · intro same
    have members : Json.rereadMembers record.members = record.members := Json.object.inj same
    have again := ofMembers_reread read
    rw [members, read] at again
    exact (Except.ok.inj again).symm

theorem performance_ofMembers {record : Record} (read : ofMembers record.members = .ok record) :
    record.performance = measurements record.members :=
  congrArg Record.performance (ofMembers_eq_ok read).2.2

/-- A record is read back from its compact text up to its doubles, so it is the same record where
each double is what its text is read as. Those with brief texts are, and no double is far off. -/
theorem parse_raw {line : List Char} {record : Record} (read : Record.parse line = .ok record) :
    Record.parse record.raw.compact.toList = .ok record.reread ∧
      (record.reread = record ↔ ∀ x ∈ record.raw.doubles, x.reread = x) ∧
      (let found := record.reread.performance
       Remeasured record.raw.doubles found.durationMs record.performance.durationMs ∧
        Remeasured record.raw.doubles found.cpuUsage record.performance.cpuUsage ∧
        Remeasured record.raw.doubles found.memoryMb record.performance.memoryMb) ∧
      ∀ x ∈ record.raw.doubles, x.reread.isFinite = true ∧ x.reread.negative = x.negative ∧
        (x.reread.code ≤ x.code + 7 ∧ x.code ≤ x.reread.code + 7) ∧ (x.Brief → x.reread = x) := by
  obtain ⟨parsed, built⟩ := json_of_parse read
  refine ⟨?_, reread_eq_iff built, ?_, ?_⟩
  · have object : record.raw.reread = .object (Json.rereadMembers record.members) := rfl
    rw [Record.parse, Json.parse_compact parsed, object]
    exact ofMembers_reread built
  · rw [performance_ofMembers built]
    exact measurements_reread record.members
  · intro x member
    have finite := Json.isFinite_doubles (Json.readable_parse parsed) x member
    exact ⟨Binary64.isFinite_reread finite, Binary64.reread_sign finite, Binary64.reread_near finite,
      Binary64.reread_brief finite⟩

theorem exists_parsed {line : List Char} {holds : Record → Bool} (found : (Record.parse line).toOption.any holds = true) :
    ∃ record, Record.parse line = .ok record ∧ holds record = true := by
  cases parsed : Record.parse line with
  | error failure =>
    rw [parsed] at found
    cases found
  | ok record =>
    rw [parsed] at found
    exact ⟨record, rfl, found⟩

/-- Two measurements: the text of the first is brief, and the second is found as another double. -/
def measuredLine : List Char :=
  "\x7b\"primitive\":\"read\",\"performance\":\x7b\"cpu_usage\":12.5,\"duration_ms\":1e-24\x7d\x7d".toList

theorem parse_raw_measured :
    ∃ record cpu duration, Record.parse measuredLine = .ok record ∧ record.raw.doubles = [cpu, duration] ∧
      Record.parse record.raw.compact.toList = .ok record.reread ∧ record.reread ≠ record ∧
      cpu.Brief ∧ cpu.reread = cpu ∧ duration.reread ≠ duration := by
  have found : (Record.parse measuredLine).toOption.any (fun record =>
      record.raw.doubles.map (fun x => (decide x.Brief, decide (x.reread = x))) = [(true, true), (false, false)]) = true := by
    decide +kernel
  obtain ⟨record, read, facts⟩ := exists_parsed found
  obtain ⟨again, equal, _, each⟩ := parse_raw read
  have facts := of_decide_eq_true facts
  obtain ⟨cpu, duration, doubles⟩ := List.length_eq_two.1 (by simpa using congrArg List.length facts)
  rw [doubles] at equal each facts
  simp only [List.map_cons, List.map_nil, List.cons.injEq, Prod.mk.injEq, decide_eq_true_eq, decide_eq_false_iff_not] at facts
  obtain ⟨⟨brief, _⟩, ⟨_, differs⟩, _⟩ := facts
  refine ⟨record, cpu, duration, read, doubles, again, ?_, brief, (each cpu List.mem_cons_self).2.2.2 brief, differs⟩
  intro same
  exact differs (equal.1 same duration (List.mem_cons_of_mem _ List.mem_cons_self))

/-- What `1e-24` is read as is not read back from its shortest text. -/
theorem duration_differs :
    ∃ record again, Record.parse measuredLine = .ok record ∧ Record.parse record.raw.compact.toList = .ok again ∧
      again.performance.cpuUsage = record.performance.cpuUsage ∧
      again.performance.durationMs ≠ record.performance.durationMs := by
  have found : (Record.parse measuredLine).toOption.any (fun record =>
      (Record.parse record.raw.compact.toList).toOption.any fun again =>
        again.performance.cpuUsage = record.performance.cpuUsage ∧
          again.performance.durationMs ≠ record.performance.durationMs) = true := by
    decide +kernel
  obtain ⟨record, read, rest⟩ := exists_parsed found
  obtain ⟨again, reread, facts⟩ := exists_parsed rest
  exact ⟨record, again, read, reread, of_decide_eq_true facts⟩

end Record

end StateAudit
