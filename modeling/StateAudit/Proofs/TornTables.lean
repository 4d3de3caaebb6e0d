import StateAudit.Proofs.MatrixLoading
import StateAudit.Proofs.MatrixWriting

/-! Tables that begin with the same bytes. A row that a byte ends is read from its own bytes, whatever
follows them. So a table that breaks shares the rows before the break with every table that has the same
bytes up to the place that the break names. -/

namespace StateAudit.Csv

section Scan
variable {mode : Mode} {place start : Place} {input taken rest : Bytes}

/-- A change to a scan that does not touch where it ends. -/
structure Scan.Keeps (change : Scan → Scan) : Prop where
  place : ∀ scan, (change scan).place = scan.place
  rest : ∀ scan rest, change { scan with rest } = { change scan with rest }

theorem Scan.Keeps.rest_eq {change : Scan → Scan} (keeps : Keeps change) (scan : Scan) : (change scan).rest = scan.rest := by
  have same := congrArg Scan.rest (keeps.rest scan scan.rest)
  exact same

theorem Scan.keeps_id : Keeps id := ⟨fun _ => rfl, fun _ _ => rfl⟩

theorem Scan.keeps_addByte (byte : UInt8) : Keeps (addByte byte) := ⟨fun _ => rfl, fun _ _ => rfl⟩

theorem Scan.keeps_addField : Keeps addField := ⟨fun _ => rfl, fun _ _ => rfl⟩

/-- A byte of a row ends it, or goes into the row that is read after it. -/
theorem scan_cons (mode : Mode) (place : Place) (byte : UInt8) :
    (∃ next change, Scan.Keeps change ∧
      ∀ rest, scan mode place (byte :: rest) = change (scan next (place.step byte) rest)) ∨
    isTerminator byte = true ∧ ∀ rest, scan mode place (byte :: rest) = ⟨[], [], true, rest, place.step byte⟩ := by
  cases mode with
  | quoted =>
    by_cases quotes : (byte == quote) = true
    · exact .inl ⟨.quoteSeen, id, Scan.keeps_id, fun rest => if_pos quotes⟩
    · exact .inl ⟨.quoted, _, Scan.keeps_addByte byte, fun rest => if_neg quotes⟩
  | quoteSeen =>
    by_cases quotes : (byte == quote) = true
    · exact .inl ⟨.quoted, _, Scan.keeps_addByte byte, fun rest => if_pos quotes⟩
    by_cases separates : (byte == comma) = true
    · exact .inl ⟨.fieldStart, _, Scan.keeps_addField, fun rest => (if_neg quotes).trans (if_pos separates)⟩
    by_cases ends : isTerminator byte = true
    · exact .inr ⟨ends, fun rest => by rw [scan, if_neg quotes, if_neg separates, if_pos ends]⟩
    · refine .inl ⟨.bare, _, Scan.keeps_addByte byte, fun rest => ?_⟩
      rw [scan, if_neg quotes, if_neg separates, if_neg ends]
  | fieldStart =>
    by_cases quotes : (byte == quote) = true
    · exact .inl ⟨.quoted, id, Scan.keeps_id, fun rest => if_pos quotes⟩
    by_cases separates : (byte == comma) = true
    · exact .inl ⟨.fieldStart, _, Scan.keeps_addField, fun rest => (if_neg quotes).trans (if_pos separates)⟩
    by_cases ends : isTerminator byte = true
    · exact .inr ⟨ends, fun rest => by rw [scan, if_neg quotes, if_neg separates, if_pos ends]⟩
    · refine .inl ⟨.bare, _, Scan.keeps_addByte byte, fun rest => ?_⟩
      rw [scan, if_neg quotes, if_neg separates, if_neg ends]
  | bare =>
    by_cases separates : (byte == comma) = true
    · exact .inl ⟨.fieldStart, _, Scan.keeps_addField, fun rest => if_pos separates⟩
    by_cases ends : isTerminator byte = true
    · exact .inr ⟨ends, fun rest => (if_neg separates).trans (if_pos ends)⟩
    · exact .inl ⟨.bare, _, Scan.keeps_addByte byte, fun rest => (if_neg separates).trans (if_neg ends)⟩

def EndsRow (taken : Bytes) : Prop := ∃ last, taken.getLast? = some last ∧ isTerminator last = true

theorem EndsRow.append_left (ended : EndsRow taken) (lead : Bytes) : EndsRow (lead ++ taken) := by
  obtain ⟨last, final, ends⟩ := ended
  exact ⟨last, by rw [List.getLast?_append, final]; rfl, ends⟩

theorem EndsRow.ne_nil (ended : EndsRow taken) : taken ≠ [] := by
  rintro rfl
  obtain ⟨last, none, -⟩ := ended
  cases none

/-- A scan that takes up some bytes to the one that ends the row, and leaves what follows as it is. -/
structure Takes (mode : Mode) (start : Place) (taken : Bytes) (found : Scan) : Prop where
  ended : EndsRow taken
  place : found.place = start.after taken
  scan : ∀ rest, scan mode start (taken ++ rest) = { found with rest }

/-- Only a byte that ends a row leaves something after it. -/
theorem exists_takes (remains : (scan mode place input).rest ≠ []) :
    ∃ taken, input = taken ++ (scan mode place input).rest ∧ Takes mode place taken (scan mode place input) := by
  induction input generalizing mode place with
  | nil => exact absurd rfl remains
  | cons byte rest ih =>
    rcases scan_cons mode place byte with ⟨next, change, keeps, step⟩ | ⟨ends, step⟩
    · rw [step, keeps.rest_eq] at remains
      obtain ⟨taken, cut, takes⟩ := ih remains
      refine ⟨byte :: taken, ?_, takes.ended.append_left [byte], ?_, fun other => ?_⟩
      · rw [step, keeps.rest_eq, List.cons_append, ← cut]
      · rw [step, keeps.place]
        exact takes.place
      · rw [step, List.cons_append, step, takes.scan, keeps.rest]
    · rw [step]
      exact ⟨[byte], rfl, ⟨byte, rfl, ends⟩, rfl, step⟩

/-- Ends of rows are skipped up to a byte that is none, whatever comes later. -/
theorem skipTerminators_again (filled : taken ≠ []) (skipped : skipTerminators place input = (start, taken ++ rest)) :
    ∃ lead, input = lead ++ (taken ++ rest) ∧ start = place.after lead ∧
      ∀ other, skipTerminators place (lead ++ (taken ++ other)) = (start, taken ++ other) := by
  induction input generalizing place with
  | nil =>
    have none : taken ++ rest = [] := (congrArg Prod.snd skipped).symm
    exact absurd (List.append_eq_nil_iff.mp none).1 filled
  | cons byte tail ih =>
    rw [skipTerminators] at skipped
    by_cases ends : isTerminator byte = true
    · rw [if_pos ends] at skipped
      obtain ⟨lead, rfl, rfl, again⟩ := ih skipped
      exact ⟨byte :: lead, rfl, rfl, fun other => by rw [List.cons_append, skipTerminators, if_pos ends, again]⟩
    · rw [if_neg ends] at skipped
      obtain ⟨rfl, body⟩ := Prod.mk.inj skipped
      refine ⟨[], body, rfl, fun other => ?_⟩
      obtain ⟨first, others, rfl⟩ := List.exists_cons_of_ne_nil filled
      obtain rfl : byte = first := (List.cons.inj body).1
      rw [List.nil_append, List.cons_append, skipTerminators, if_neg ends]

def HasMark (place : Place) (input : Bytes) : Prop := place.byte = 0 ∧ ∃ rest, input = 0xEF :: 0xBB :: 0xBF :: rest

theorem skipLead_unmarked (unmarked : ¬ HasMark place input) : skipLead place input = skipTerminators place input := by
  rw [skipLead]
  exact fun rest start mark => unmarked ⟨start, rest, mark⟩

/-- No end of a row is part of a byte order mark. -/
theorem EndsRow.hasMark (ended : EndsRow taken) (other : Bytes) (marked : HasMark place (taken ++ rest)) :
    HasMark place (taken ++ other) := by
  obtain ⟨start, tail, mark⟩ := marked
  obtain ⟨last, final, ends⟩ := ended
  refine ⟨start, ?_⟩
  match taken, final with
  | [first], rfl =>
    obtain rfl := (List.cons.inj mark).1
    cases ends
  | [first, second], rfl =>
    obtain rfl := (List.cons.inj (List.cons.inj mark).2).1
    cases ends
  | first :: second :: third :: more, _ =>
    simp only [List.cons_append, List.cons.injEq] at mark ⊢
    exact ⟨more ++ other, mark.1, mark.2.1, mark.2.2.1, rfl⟩

theorem skipLead_again (ended : EndsRow taken) (skipped : skipLead place input = (start, taken ++ rest)) :
    ∃ lead, input = lead ++ (taken ++ rest) ∧ start = place.after lead ∧
      ∀ other, skipLead place (lead ++ (taken ++ other)) = (start, taken ++ other) := by
  by_cases marked : HasMark place input
  · obtain ⟨line, byte⟩ := place
    obtain ⟨rfl, tail, rfl⟩ := marked
    obtain ⟨lead, rfl, rfl, again⟩ := skipTerminators_again ended.ne_nil skipped
    exact ⟨0xEF :: 0xBB :: 0xBF :: lead, rfl, rfl, again⟩
  · rw [skipLead_unmarked marked] at skipped
    obtain ⟨lead, rfl, rfl, again⟩ := skipTerminators_again ended.ne_nil skipped
    refine ⟨lead, rfl, rfl, fun other => ?_⟩
    rw [skipLead_unmarked, again]
    intro other
    rw [← List.append_assoc] at other marked
    exact marked ((ended.append_left lead).hasMark rest other)

end Scan

section Rows
variable {number fuel : Nat} {place start : Place} {input body : Bytes} {row : Row} {later : List Row}

theorem rowsFrom_visible (skipped : skipLead place input = (start, body)) (visible : body ≠ []) :
    rowsFrom true number place (fuel + 1) input =
      ⟨number, place, (scan .fieldStart start body).fields⟩ :: rowsFrom true (number + 1)
        (scan .fieldStart start body).place fuel (scan .fieldStart start body).rest := by
  rw [rowsFrom, skipped]
  simp only [List.isEmpty_eq_false_iff.mpr visible, Bool.not_true, Bool.false_and, Bool.false_eq_true, ite_false]

theorem rowsFrom_blank (skipped : skipLead place input = (start, [])) : rowsFrom true number place fuel input = [] := by
  cases fuel with
  | zero => rfl
  | succ fuel => rw [rowsFrom, skipped]; rfl

theorem rowsFrom_nil : rowsFrom true number place fuel [] = [] :=
  rowsFrom_blank (skipLead_unmarked fun ⟨_, _, mark⟩ => nomatch mark)

theorem visible_of_rowsFrom (read : rowsFrom true number place fuel input = row :: later) :
    ∃ start body fewer, fuel = fewer + 1 ∧ skipLead place input = (start, body) ∧ body ≠ [] := by
  cases fuel with
  | zero => cases read
  | succ fewer =>
    cases skipped : skipLead place input with
    | mk start body =>
      refine ⟨start, body, fewer, rfl, rfl, ?_⟩
      rintro rfl
      rw [rowsFrom_blank skipped] at read
      cases read

/-- A row that another follows has bytes of its own, and is read from them whatever else follows. -/
theorem rowsFrom_first {next : Row} (read : rowsFrom true number place fuel input = row :: next :: later) :
    ∃ used rest, input = used ++ rest ∧ used ≠ [] ∧ ∀ fuel other, rowsFrom true number place (fuel + 1) (used ++ other) =
      row :: rowsFrom true (number + 1) (place.after used) fuel other := by
  obtain ⟨start, body, fuel, rfl, skipped, visible⟩ := visible_of_rowsFrom read
  rw [rowsFrom_visible skipped visible] at read
  obtain ⟨rfl, follows⟩ := List.cons.inj read
  have remains : (scan .fieldStart start body).rest ≠ [] := by
    intro none
    rw [none, rowsFrom_nil] at follows
    cases follows
  obtain ⟨taken, cut, takes⟩ := exists_takes remains
  rw [cut] at skipped
  obtain ⟨lead, rfl, rfl, again⟩ := skipLead_again takes.ended skipped
  refine ⟨lead ++ taken, _, (List.append_assoc ..).symm, (takes.ended.append_left lead).ne_nil, fun fuel other => ?_⟩
  rw [List.append_assoc, rowsFrom_visible (again other) (List.append_ne_nil_of_left_ne_nil takes.ended.ne_nil _),
    takes.scan, takes.place, Place.after_append]
  rfl

/-- The rows before one are read from the bytes before it. -/
theorem rowsFrom_before {failing : Row} {good : List Row}
    (read : rowsFrom true number place fuel input = good ++ failing :: later) :
    ∃ used rest, input = used ++ rest ∧ failing.place = place.after used ∧
      ∀ fuel other, used.length ≤ fuel → good <+: rowsFrom true number place fuel (used ++ other) := by
  induction good generalizing number place fuel input with
  | nil =>
    obtain ⟨start, body, fuel, rfl, skipped, visible⟩ := visible_of_rowsFrom read
    rw [rowsFrom_visible skipped visible] at read
    obtain ⟨rfl, -⟩ := List.cons.inj read
    exact ⟨[], input, rfl, rfl, fun _ _ _ => List.nil_prefix⟩
  | cons row good ih =>
    obtain ⟨next, others, shape⟩ : ∃ next others, good ++ failing :: later = next :: others := by
      cases good <;> exact ⟨_, _, rfl⟩
    rw [List.cons_append, shape] at read
    obtain ⟨first, rest, rfl, filled, again⟩ := rowsFrom_first read
    obtain ⟨start, body, fuel, rfl, -, -⟩ := visible_of_rowsFrom read
    rw [again, ← shape] at read
    obtain ⟨used, rest, rfl, behind, shared⟩ := ih (List.cons.inj read).2
    refine ⟨first ++ used, rest, (List.append_assoc ..).symm, ?_, fun fuel other enough => ?_⟩
    · rw [behind, Place.after_append]
    · have own := List.length_pos_iff.mpr filled
      rw [List.length_append] at enough
      obtain ⟨fuel, rfl⟩ : ∃ fewer, fuel = fewer + 1 := ⟨fuel - 1, by omega⟩
      rw [List.append_assoc, again, List.cons_prefix_cons]
      exact ⟨rfl, shared fuel other (by omega)⟩

end Rows

/-- The rows before one stand in every input with the same bytes up to that row. -/
theorem rows_before {torn intact : Bytes} {good later : List Row} {failing : Row}
    (read : rows true torn = good ++ failing :: later)
    (shared : torn.take failing.place.byte = intact.take failing.place.byte) : good <+: rows true intact := by
  obtain ⟨used, rest, rfl, behind, before⟩ := rowsFrom_before read
  have length : failing.place.byte = used.length := by
    rw [behind, Place.byte_after, Nat.zero_add]
  rw [length, List.take_left] at shared
  obtain ⟨other, rfl⟩ : used <+: intact := shared ▸ List.take_prefix used.length intact
  exact before _ other (by simp)

theorem decodeFields_place {row : Row} {field : Nat} {fields : List Bytes} {bad : BadField}
    (failed : decodeFields row field fields = .error bad) : bad.place = row.place := by
  induction fields generalizing field with
  | nil => cases failed
  | cons bytes rest ih =>
    rw [decodeFields] at failed
    split at failed
    · exact Except.error.inj failed ▸ rfl
    · split at failed
      · rename_i later
        exact ih (later.trans failed)
      · cases failed

theorem decodeRows_good {good : List Row} {texts : List (List String)}
    (decoded : List.Forall₂ (fun row cells => decodeRow row = .ok cells) good texts) (more : List Row) :
    (decodeRows (good ++ more)).1 = texts ++ (decodeRows more).1 := by
  induction decoded with
  | nil => rfl
  | cons own _ ih =>
    rw [List.cons_append, decodeRows, own]
    simp only [ih, List.cons_append]

/-- What a table that breaks still gives is the beginning of what any table gives that agrees with
it up to the break. -/
theorem Breaks.matrix_prefix {torn intact : Bytes} {bad : BadField} {states : List State} (breaks : Breaks torn bad states)
    (shared : torn.take bad.place.byte = intact.take bad.place.byte) : states <+: Vocabulary.matrix intact := by
  cases breaks with
  | header => exact List.nil_prefix
  | @row first failing good others header texts read decoded texts failed =>
    rw [decodeFields_place failed] at shared
    have cut : rows true torn = (first :: good) ++ failing :: others := read
    obtain ⟨more, whole⟩ := rows_before cut shared
    simp only [Vocabulary.matrix, readTable, ← whole, List.cons_append, decoded, decodeRows_good texts, List.map_append]
    exact List.prefix_append _ _

end StateAudit.Csv
