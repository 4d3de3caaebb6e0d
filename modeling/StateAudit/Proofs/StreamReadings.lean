import StateAudit.Proofs.StreamLines
import StateAudit.Proofs.Utf8Reading
import StateAudit.Stream.Validation

/-! Readings: the entries of a stream that come before its first failure. Each stands at the
number of its line, counted from one with the blank lines, so numbers increase and logs that
follow one another have their numbers added. -/

namespace StateAudit

/-- A record that is read has the two fields that may be refused, and every other one as the object gives it. -/
theorem Record.ofMembers_eq_ok {members : Json.Members} {record : Record} (read : ofMembers members = .ok record) :
    stringField members "primitive" = .ok record.primitive ∧ stringField members "context" = .ok record.context ∧
      record =
        { record with
          stateId := textField members "state_id"
          status := (outcome members).1
          message := (outcome members).2
          performance := measurements members
          members } := by
  simp only [ofMembers] at read
  split at read
  · cases read
  next primitive first =>
    split at read
    · cases read
    next context second =>
      obtain rfl := Except.ok.inj read
      exact ⟨first, second, rfl⟩

theorem Record.members_ofMembers {members : Json.Members} {record : Record}
    (read : Record.ofMembers members = .ok record) : record.members = members :=
  congrArg Record.members (ofMembers_eq_ok read).2.2

namespace Stream

structure Reading where
  line : Nat
  result : Except RecordError Record

def readings : List Entry → List Reading
  | [] => []
  | .record line record :: rest => ⟨line, .ok record⟩ :: readings rest
  | .malformed line error :: rest => ⟨line, .error error⟩ :: readings rest
  | .failed _ _ :: _ => []

def untilFailure : List Line → List Bytes
  | [] => []
  | .full content :: rest => content :: untilFailure rest
  | .failed _ :: _ => []

/-- Lines that are not blank, each with its number after `number` others. -/
def numbered (number : Nat) (lines : List Bytes) : List Reading :=
  (lines.zipIdx (number + 1)).filterMap fun (content, line) => (readLine? content).map (Reading.mk line)

/-- A line that is not UTF-8, or that has more than white space. -/
def HoldsEntry (content : Bytes) : Prop :=
  ∀ text, Utf8.encode text = content → ∃ char ∈ text, Text.isBlank char = false

def Reading.shift (count : Nat) (reading : Reading) : Reading := { reading with line := count + reading.line }

theorem isSome_readLine? {content : Bytes} : (readLine? content).isSome = true ↔ HoldsEntry content := by
  simp only [readLine?, HoldsEntry, ← Utf8.decode?_eq_some]
  cases Utf8.decode? content with
  | none => simp
  | some text => simp

instance (content : Bytes) : Decidable (HoldsEntry content) := decidable_of_iff _ isSome_readLine?

theorem object_of_readLine? {content : Bytes} {record : Record} (read : readLine? content = some (.ok record)) :
    ∃ text members, Utf8.encode text = content ∧ Json.parse text = .ok (.object members) ∧
      record.raw = .object members := by
  simp only [readLine?] at read
  split at read
  · cases read
  next text decoded =>
    split at read
    · cases read
    · simp only [Record.parse, Option.some.injEq] at read
      split at read
      next value parsed =>
        cases value with
        | object members =>
          exact ⟨text, members, Utf8.decode?_eq_some.mp decoded, parsed, congrArg Json.object (Record.members_ofMembers read)⟩
        | null | bool _ | number _ | string _ | array _ => cases read
      · cases read

theorem numbered_cons (number : Nat) (content : Bytes) (rest : List Bytes) :
    numbered number (content :: rest) =
      ((readLine? content).map (Reading.mk (number + 1))).toList ++ numbered (number + 1) rest := by
  simp only [numbered, List.zipIdx_cons, List.filterMap_cons]
  cases readLine? content <;> rfl

theorem readings_ofResult (line : Nat) (result : Except RecordError Record) (rest : List Entry) :
    readings (.ofResult line result :: rest) = ⟨line, result⟩ :: readings rest := by
  cases result <;> rfl

theorem readings_entriesFrom (number : Nat) (lines : List Line) :
    readings (entriesFrom number lines) = numbered number (untilFailure lines) := by
  induction lines generalizing number with
  | nil => rfl
  | cons line rest ih =>
    cases line with
    | failed fault => rfl
    | full content =>
      rw [untilFailure, numbered_cons, entriesFrom, ← ih]
      cases readLine? content with
      | none => rfl
      | some result => exact readings_ofResult _ result _

@[simp] theorem untilFailure_full (contents : List Bytes) : untilFailure (contents.map .full) = contents := by
  induction contents with
  | nil => rfl
  | cons content rest ih => simp only [List.map_cons, untilFailure, ih]

theorem readings_bytes (contents : List Bytes) :
    readings (entries (contents.map .bytes)) = numbered 0 (contentLines contents.flatten) := by
  rw [entries, readings_entriesFrom, lines_bytes, untilFailure_full]

theorem mem_numbered {number : Nat} {lines : List Bytes} {reading : Reading} :
    reading ∈ numbered number lines ↔ ∃ index content, lines[index]? = some content ∧
      reading.line = number + index + 1 ∧ readLine? content = some reading.result := by
  simp only [numbered, List.mem_filterMap, Prod.exists, List.mk_mem_zipIdx_iff_le_and_getElem?_sub,
    Option.map_eq_some_iff]
  constructor
  · rintro ⟨content, line, ⟨after, found⟩, result, read, rfl⟩
    have place : line = number + (line - (number + 1)) + 1 := by omega
    exact ⟨line - (number + 1), content, found, place, read⟩
  · rintro ⟨index, content, found, place, read⟩
    refine ⟨content, reading.line, ⟨by omega, ?_⟩, reading.result, read, rfl⟩
    rwa [show reading.line - (number + 1) = index by omega]

theorem numbered_increasing (number : Nat) (lines : List Bytes) :
    ((numbered number lines).map Reading.line).Pairwise (· < ·) := by
  induction lines generalizing number with
  | nil => exact .nil
  | cons content rest ih =>
    rw [numbered_cons]
    cases readLine? content with
    | none => exact ih (number + 1)
    | some result =>
      refine .cons ?_ (ih (number + 1))
      intro later member
      obtain ⟨reading, inside, rfl⟩ := List.mem_map.mp member
      obtain ⟨index, _, _, place, _⟩ := mem_numbered.mp inside
      simp only
      omega

theorem numbered_append (number : Nat) (first second : List Bytes) :
    numbered number (first ++ second) = numbered number first ++ numbered (number + first.length) second := by
  rw [numbered, List.zipIdx_append, List.filterMap_append, numbered, numbered]
  congr 3
  omega

theorem numbered_add (count number : Nat) (lines : List Bytes) :
    numbered (count + number) lines = (numbered number lines).map (Reading.shift count) := by
  induction lines generalizing number with
  | nil => rfl
  | cons content rest ih =>
    rw [numbered_cons, numbered_cons, List.map_append, ← ih]
    cases readLine? content <;> rfl

theorem length_numbered (number : Nat) (lines : List Bytes) :
    (numbered number lines).length = lines.countP (HoldsEntry ·) := by
  induction lines generalizing number with
  | nil => rfl
  | cons content rest ih =>
    have held : decide (HoldsEntry content) = (readLine? content).isSome :=
      Bool.eq_iff_iff.mpr (decide_eq_true_iff.trans isSome_readLine?.symm)
    rw [numbered_cons, List.length_append, ih, List.countP_cons, held]
    cases readLine? content
    · simp
    · simp [Nat.add_comm]

end Stream

end StateAudit
