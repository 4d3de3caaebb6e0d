import StateAudit.Proofs.MatrixMembership
import StateAudit.Proofs.Utf8Reading
import Mathlib.Tactic.MkIffOfInductiveProp

/-! Tables as text. Cells that need no quotes and have no blanks to lose are read as they were written,
so a matrix of derived states is the same from its text as from the states themselves. -/

namespace StateAudit

/-- What begins and ends with something to keep loses nothing. -/
theorem trim_eq_self {blank : α → Bool} {items : List α} (first : ∀ item ∈ items.head?, blank item = false)
    (last : ∀ item ∈ items.getLast?, blank item = false) :
    ((items.dropWhile blank).reverse.dropWhile blank).reverse = items := by
  have kept {held : List α} (first : ∀ item ∈ held.head?, blank item = false) : held.dropWhile blank = held := by
    cases held with
    | nil => rfl
    | cons item rest => rw [List.dropWhile_cons, first item rfl, if_neg Bool.false_ne_true]
  rw [kept first, kept (by rwa [List.head?_reverse]), List.reverse_reverse]

namespace Csv

/-- A cell that stands in a row as it is. -/
@[mk_iff]
structure Plain (cell : List Char) : Prop where
  filled : cell ≠ []
  first : ∀ char ∈ cell.head?, Text.isBlank char = false
  last : ∀ char ∈ cell.getLast?, Text.isBlank char = false
  unmarked : ∀ mark ∈ [',', '"', '\r', '\n'], mark ∉ cell

/-- Decided on the cell alone, not by a search among all characters. -/
instance (cell : List Char) : Decidable (Plain cell) :=
  decidable_of_iff ((!cell.isEmpty && cell.head?.all (!Text.isBlank ·) && cell.getLast?.all (!Text.isBlank ·) &&
      [',', '"', '\r', '\n'].all (!cell.contains ·)) = true) (by
    rw [plain_iff]
    simp only [Bool.and_eq_true, and_assoc]
    simp only [Bool.not_eq_true', List.isEmpty_eq_false_iff, Option.all_eq_true, List.all_eq_true, Option.mem_def,
      List.contains_eq_mem, decide_eq_false_iff_not])

/-- The row of a cell and those after it. -/
def writeRow (first : List Char) : List (List Char) → List Char
  | [] => first ++ ['\n']
  | second :: others => first ++ ',' :: writeRow second others

def rowBytes (first : Bytes) : List Bytes → Bytes
  | [] => first ++ [lineFeed]
  | second :: others => first ++ comma :: rowBytes second others

theorem encode_writeRow (first : List Char) (others : List (List Char)) :
    Utf8.encode (writeRow first others) = rowBytes (Utf8.encode first) (others.map Utf8.encode) := by
  induction others generalizing first with
  | nil => exact Utf8.encode_append first ['\n']
  | cons second others ih =>
    rw [writeRow, Utf8.encode_append, List.map_cons, rowBytes, ← ih]
    rfl

/-- Bytes that neither end a field nor begin one in quotes. -/
structure Unmarked (field : Bytes) : Prop where
  filled : field ≠ []
  inside : ∀ byte ∈ field, byte ≠ comma ∧ byte ≠ quote ∧ isTerminator byte = false

theorem Plain.encoded {cell : List Char} (plain : Plain cell) : Unmarked (Utf8.encode cell) := by
  constructor
  · obtain ⟨char, rest, rfl⟩ := List.exists_cons_of_ne_nil plain.filled
    exact List.append_ne_nil_of_left_ne_nil String.utf8EncodeChar_ne_nil _
  · intro byte member
    have differs {mark : UInt8} (ascii : mark < 0x80) (listed : Char.ofNat mark.toNat ∈ [',', '"', '\r', '\n']) :
        byte ≠ mark := by
      rintro rfl
      exact plain.unmarked _ listed (Utf8.mem_of_mem_encode member ascii)
    refine ⟨differs (by decide) (by decide), differs (by decide) (by decide), ?_⟩
    rw [isTerminator, Bool.or_eq_false_iff, beq_eq_false_iff_ne, beq_eq_false_iff_ne]
    exact ⟨differs (by decide) (by decide), differs (by decide) (by decide)⟩

theorem isBlank_ascii {byte : UInt8} (blank : isAsciiBlank byte = true) :
    byte < 0x80 ∧ Text.isBlank (Char.ofNat byte.toNat) = true := by
  simp only [isAsciiBlank, Bool.or_eq_true, beq_iff_eq] at blank
  rcases blank with (((rfl | rfl) | rfl) | rfl) | rfl <;> decide

/-- Blanks are also recognized by the bytes at the ends of a cell. -/
theorem Plain.trimBytes {cell : List Char} (plain : Plain cell) : trimBytes (Utf8.encode cell) = Utf8.encode cell := by
  have kept {char : Char} {byte : UInt8} (visible : Text.isBlank char = false) (member : byte ∈ Utf8.encodeChar char) :
      isAsciiBlank byte = false := by
    refine Bool.eq_false_iff.mpr fun blank => ?_
    obtain ⟨ascii, same⟩ := isBlank_ascii blank
    have inside : byte ∈ Utf8.encode [char] := by rwa [Utf8.encode, List.flatMap_singleton]
    rw [List.mem_singleton.mp (Utf8.mem_of_mem_encode inside ascii), visible] at same
    cases same
  refine trim_eq_self ?_ ?_
  · intro byte first
    obtain ⟨char, rest, rfl⟩ := List.exists_cons_of_ne_nil plain.filled
    refine kept (plain.first char rfl) ?_
    have head : (Utf8.encode (char :: rest)).head? = (Utf8.encodeChar char).head? :=
      List.head?_append_of_ne_nil _ String.utf8EncodeChar_ne_nil
    exact List.mem_of_head? (head ▸ first)
  · intro byte last
    obtain ⟨front, char, rfl⟩ := (List.eq_nil_or_concat' cell).resolve_left plain.filled
    refine kept (plain.last char List.getLast?_concat) ?_
    have tail : (Utf8.encode (front ++ [char])).getLast? = (Utf8.encodeChar char).getLast? := by
      rw [Utf8.encode_append, Utf8.encode, Utf8.encode, List.flatMap_singleton]
      exact List.getLast?_append_of_ne_nil _ String.utf8EncodeChar_ne_nil
    exact List.mem_of_getLast? (tail ▸ last)

section Scan
variable {place : Place} {rest : Bytes}

def Place.after (place : Place) (bytes : Bytes) : Place := bytes.foldl Place.step place

theorem Place.byte_after (place : Place) (bytes : Bytes) : (place.after bytes).byte = place.byte + bytes.length := by
  induction bytes generalizing place with
  | nil => rfl
  | cons byte rest ih =>
    rw [Place.after, List.foldl_cons, ← Place.after, ih, List.length_cons, Nat.add_comm rest.length, ← Nat.add_assoc]
    rfl

def Scan.addBytes (bytes : Bytes) (scan : Scan) : Scan := { scan with first := bytes ++ scan.first }

theorem scan_bare {field : Bytes} (inside : ∀ byte ∈ field, byte ≠ comma ∧ byte ≠ quote ∧ isTerminator byte = false) :
    scan .bare place (field ++ rest) = (scan .bare (place.after field) rest).addBytes field := by
  induction field generalizing place with
  | nil => rfl
  | cons byte field ih =>
    obtain ⟨separates, _, ends⟩ := inside byte List.mem_cons_self
    rw [List.cons_append, scan, if_neg (by simpa using separates), if_neg (by simp [ends]),
      ih fun other member => inside other (List.mem_cons_of_mem _ member)]
    rfl

theorem scan_field {field : Bytes} (unmarked : Unmarked field) :
    scan .fieldStart place (field ++ rest) = (scan .bare (place.after field) rest).addBytes field := by
  obtain ⟨byte, tail, rfl⟩ := List.exists_cons_of_ne_nil unmarked.filled
  obtain ⟨separates, quotes, ends⟩ := unmarked.inside byte List.mem_cons_self
  rw [List.cons_append, scan, if_neg (by simpa using quotes), if_neg (by simpa using separates), if_neg (by simp [ends]),
    scan_bare fun other member => unmarked.inside other (List.mem_cons_of_mem _ member)]
  rfl

theorem Place.after_append (place : Place) (first second : Bytes) :
    place.after (first ++ second) = (place.after first).after second := List.foldl_append

theorem scan_row {first : Bytes} {others : List Bytes} (unmarked : ∀ field ∈ first :: others, Unmarked field) :
    scan .fieldStart place (rowBytes first others ++ rest) =
      ⟨first, others, true, rest, place.after (rowBytes first others)⟩ := by
  induction others generalizing first place with
  | nil =>
    have ended : scan .bare (place.after first) (lineFeed :: rest) =
        ⟨[], [], true, rest, (place.after first).after [lineFeed]⟩ := rfl
    rw [rowBytes, List.append_assoc, List.singleton_append, scan_field (unmarked first List.mem_cons_self), ended,
      Place.after_append]
    simp [Scan.addBytes]
  | cons second others ih =>
    have separated : scan .bare (place.after first) (comma :: (rowBytes second others ++ rest)) =
        (scan .fieldStart ((place.after first).after [comma]) (rowBytes second others ++ rest)).addField := rfl
    rw [rowBytes, List.append_assoc, List.cons_append, scan_field (unmarked first List.mem_cons_self), separated,
      ih fun field member => unmarked field (List.mem_cons_of_mem _ member), List.append_cons, Place.after_append,
      Place.after_append]
    simp [Scan.addBytes, Scan.addField]

theorem skipLead_visible {byte : UInt8} (visible : isTerminator byte = false) (begun : place.byte ≠ 0 ∨ byte ≠ 0xEF) :
    skipLead place (byte :: rest) = (place, byte :: rest) := by
  rw [skipLead, skipTerminators, if_neg (by simp [visible])]
  -- A byte order mark at the beginning has a row of its own in the definition.
  intro _ start mark
  exact begun.elim (· start) (· (List.cons.inj mark).1)

theorem rowsFrom_row {first : Bytes} {others : List Bytes} (unmarked : ∀ field ∈ first :: others, Unmarked field)
    (begun : place.byte ≠ 0 ∨ first.head? ≠ some 0xEF) (number fuel : Nat) :
    rowsFrom true number place (fuel + 1) (rowBytes first others ++ rest) =
      ⟨number, place, first :: others⟩ ::
        rowsFrom true (number + 1) (place.after (rowBytes first others)) fuel rest := by
  have filled := unmarked first List.mem_cons_self
  obtain ⟨byte, tail, rfl⟩ := List.exists_cons_of_ne_nil filled.filled
  have visible := (filled.inside byte List.mem_cons_self).2.2
  have lead : place.byte ≠ 0 ∨ byte ≠ 0xEF := begun.imp_right fun unmarked same => unmarked (congrArg some same)
  have scanned : scan .fieldStart place (rowBytes (byte :: tail) others ++ rest) = _ := scan_row unmarked
  obtain ⟨behind, shape⟩ : ∃ behind, rowBytes (byte :: tail) others ++ rest = byte :: behind := by
    cases others <;> exact ⟨_, rfl⟩
  rw [shape] at scanned ⊢
  rw [rowsFrom, skipLead_visible visible lead]
  simp only [scanned, List.isEmpty_cons, Bool.not_true, Bool.and_false, Bool.false_eq_true, ite_false]
  rfl

end Scan

/-- Rows of unmarked fields are read one by one. Only the first could lose a byte order mark. -/
theorem rowsFrom_written {rows : List (Bytes × List Bytes)}
    (unmarked : ∀ row ∈ rows, ∀ field ∈ row.1 :: row.2, Unmarked field) {place : Place}
    (begun : place.byte ≠ 0 ∨ ∀ row ∈ rows.head?, row.1.head? ≠ some 0xEF) (number : Nat) {fuel : Nat}
    (enough : rows.length ≤ fuel) :
    (rowsFrom true number place fuel (rows.flatMap fun row => rowBytes row.1 row.2)).map Row.fields =
      rows.map fun row => row.1 :: row.2 := by
  induction rows generalizing place number fuel with
  | nil =>
    cases fuel with
    | zero => rfl
    | succ fuel =>
      have none : skipLead place [] = (place, []) := by rw [skipLead, skipTerminators]; simp
      rw [List.flatMap_nil, rowsFrom, none]
      rfl
  | cons row rows ih =>
    obtain ⟨fuel, rfl⟩ := Nat.exists_eq_add_one_of_ne_zero (Nat.ne_of_gt (Nat.lt_of_lt_of_le (Nat.succ_pos _) enough))
    have later : (place.after (rowBytes row.1 row.2)).byte ≠ 0 := by
      have filled : 0 < (rowBytes row.1 row.2).length := by
        cases row.2 <;> simp [rowBytes]
      rw [Place.byte_after]
      omega
    rw [List.flatMap_cons, rowsFrom_row (unmarked row List.mem_cons_self) (begun.imp_right fun marks => marks row rfl),
      List.map_cons, ih (fun other member => unmarked other (List.mem_cons_of_mem _ member)) (.inl later) _
        (Nat.le_of_succ_le_succ enough), List.map_cons]

theorem decodeFields_encode (row : Row) (field : Nat) {cells : List (List Char)}
    (trimmed : ∀ cell ∈ cells, Text.trim cell = cell) :
    decodeFields row field (cells.map Utf8.encode) = .ok (cells.map String.ofList) := by
  induction cells generalizing field with
  | nil => rfl
  | cons cell cells ih =>
    rw [List.map_cons, decodeFields, Utf8.decode_encode]
    simp only [ih (field + 1) fun other member => trimmed other (List.mem_cons_of_mem _ member),
      trimmed cell List.mem_cons_self, List.map_cons]

theorem Plain.trim {cell : List Char} (plain : Plain cell) : Text.trim cell = cell :=
  trim_eq_self plain.first plain.last

theorem decodeRow_plain {row : Row} {cells : List (List Char)} (fields : row.fields = cells.map Utf8.encode)
    (plain : ∀ cell ∈ cells, Plain cell) : decodeRow row = .ok (cells.map String.ofList) := by
  have kept : row.fields.map Csv.trimBytes = cells.map Utf8.encode := by
    rw [fields, List.map_map]
    exact List.map_congr_left fun cell member => (plain cell member).trimBytes
  rw [decodeRow, kept, decodeFields_encode _ _ fun cell member => (plain cell member).trim]

theorem decodeRows_plain {rows : List Row} {texts : List (List (List Char))}
    (fields : rows.map Row.fields = texts.map (·.map Utf8.encode)) (plain : ∀ cells ∈ texts, ∀ cell ∈ cells, Plain cell) :
    decodeRows rows = (texts.map (·.map String.ofList), none) := by
  induction texts generalizing rows with
  | nil => rw [List.map_eq_nil_iff.mp fields]; rfl
  | cons cells texts ih =>
    obtain ⟨row, rest, rfl, own, others⟩ := List.map_eq_cons_iff.mp fields
    rw [decodeRows, decodeRow_plain own (plain cells List.mem_cons_self)]
    simp only [ih others fun other member => plain other (List.mem_cons_of_mem _ member), List.map_cons]

theorem length_le_flatMap {items : List α} {write : α → List β} (filled : ∀ item ∈ items, write item ≠ []) :
    items.length ≤ (items.flatMap write).length := by
  induction items with
  | nil => exact Nat.le_refl 0
  | cons item items ih =>
    have one := List.length_pos_iff.mpr (filled item List.mem_cons_self)
    have others := ih fun other member => filled other (List.mem_cons_of_mem _ member)
    rw [List.flatMap_cons, List.length_append, List.length_cons]
    omega

def encodeRow (row : List Char × List (List Char)) : Bytes × List Bytes :=
  (Utf8.encode row.1, row.2.map Utf8.encode)

theorem fields_written {rows : List (List Char × List (List Char))}
    (plain : ∀ row ∈ rows, ∀ cell ∈ row.1 :: row.2, Plain cell)
    (unmarked : ∀ row ∈ rows.head?, (Utf8.encode row.1).head? ≠ some 0xEF) :
    (Csv.rows true (Utf8.encode (rows.flatMap fun row => writeRow row.1 row.2))).map Row.fields =
      rows.map fun row => (row.1 :: row.2).map Utf8.encode := by
  have bytes : Utf8.encode (rows.flatMap fun row => writeRow row.1 row.2) =
      (rows.map encodeRow).flatMap fun row => rowBytes row.1 row.2 := by
    rw [Utf8.encode, List.flatMap_assoc, List.flatMap_map]
    exact List.flatMap_congr fun row _ => encode_writeRow row.1 row.2
  rw [bytes, Csv.rows, rowsFrom_written]
  · simp [encodeRow]
  · simp only [List.forall_mem_map]
    intro row member field inside
    obtain ⟨cell, found, rfl⟩ : ∃ cell ∈ row.1 :: row.2, Utf8.encode cell = field := by
      simpa [encodeRow, eq_comm] using inside
    exact (plain row member cell found).encoded
  · refine .inr fun row first => ?_
    rw [List.head?_map] at first
    obtain ⟨written, head, rfl⟩ := Option.map_eq_some_iff.mp first
    exact unmarked written head
  · refine length_le_flatMap fun row _ => ?_
    cases row.2 <;> simp [rowBytes]

/-- A table of plain cells is read as it was written, if it does not begin like a byte order mark. -/
theorem readTable_written {header : List Char × List (List Char)} {rows : List (List Char × List (List Char))}
    (plain : ∀ row ∈ header :: rows, ∀ cell ∈ row.1 :: row.2, Plain cell)
    (unmarked : (Utf8.encode header.1).head? ≠ some 0xEF) :
    readTable true (Utf8.encode ((header :: rows).flatMap fun row => writeRow row.1 row.2)) =
      { header := (header.1 :: header.2).map String.ofList
        rows := rows.map fun row => (row.1 :: row.2).map String.ofList } := by
  have fields := fields_written plain fun row first => Option.some.inj first ▸ unmarked
  obtain ⟨first, rest, cut, own, others⟩ := List.map_eq_cons_iff.mp fields
  have trimmed : ∀ cell ∈ header.1 :: header.2, Text.trim cell = cell :=
    fun cell member => (plain header List.mem_cons_self cell member).trim
  have texts : decodeRows rest = ((rows.map fun row => row.1 :: row.2).map (·.map String.ofList), none) := by
    refine decodeRows_plain ?_ ?_
    · rw [others, List.map_map]
      rfl
    · simp only [List.forall_mem_map]
      exact fun row member => plain row (List.mem_cons_of_mem _ member)
  rw [readTable, cut]
  simp only [decodeHeader, own, decodeFields_encode first 0 trimmed, texts, List.map_map]
  rfl

end Csv

namespace Vocabulary

def rowText (primitive context : String) : String :=
  deriveStateId primitive context ++ "," ++ primitive ++ "," ++ context ++ "\n"

def headerText : String := "state_id,primitive,context\n"

/-- A matrix with one row for each pair of a primitive and a context. -/
def matrixText (pairs : List (String × String)) : List Char :=
  headerText.toList ++ pairs.flatMap fun pair => (rowText pair.1 pair.2).toList

/-- Nothing that is put around labels makes an identifier that is not plain. -/
theorem plain_deriveStateId {primitive context : String} (operation : Csv.Plain primitive.toList)
    (environment : Csv.Plain context.toList) : Csv.Plain (deriveStateId primitive context).toList := by
  rw [toList_deriveStateId]
  constructor
  case filled => simp
  case first =>
    intro char first
    obtain rfl : 'P' = char := by simpa using first
    decide
  case last =>
    intro char last
    refine environment.last char ?_
    rwa [List.getLast?_append_of_ne_nil _ (by simp), List.getLast?_append_of_ne_nil _ (by simp),
      List.getLast?_append_of_ne_nil _ environment.filled] at last
  case unmarked =>
    intro mark listed
    have around : mark ∉ "PRIM_".toList ∧ mark ∉ "_CTX_".toList := by
      simp only [List.mem_cons, List.not_mem_nil, or_false] at listed
      obtain rfl | rfl | rfl | rfl := listed <;> decide
    simp only [List.mem_append, not_or]
    exact ⟨around.1, operation.unmarked mark listed, around.2, environment.unmarked mark listed⟩

def headerCells : List Char × List (List Char) := ("state_id".toList, ["primitive".toList, "context".toList])

def pairCells (pair : String × String) : List Char × List (List Char) :=
  ((deriveStateId pair.1 pair.2).toList, [pair.1.toList, pair.2.toList])

theorem matrixText_eq (pairs : List (String × String)) :
    matrixText pairs = (headerCells :: pairs.map pairCells).flatMap fun row => Csv.writeRow row.1 row.2 := by
  have header : headerText.toList = Csv.writeRow headerCells.1 headerCells.2 := by decide +kernel
  have row (pair : String × String) :
      (rowText pair.1 pair.2).toList = Csv.writeRow (pairCells pair).1 (pairCells pair).2 := by
    simp [rowText, pairCells, Csv.writeRow]
  rw [matrixText, List.flatMap_cons, List.flatMap_map, header, List.append_cancel_left_eq]
  exact List.flatMap_congr fun pair _ => row pair

theorem ofRow_pair (pair : String × String) :
    State.ofRow State.columnNames (((pairCells pair).1 :: (pairCells pair).2).map String.ofList) =
      .ofPair pair.1 pair.2 := by
  have cells : ((pairCells pair).1 :: (pairCells pair).2).map String.ofList =
      [deriveStateId pair.1 pair.2, pair.1, pair.2] := by
    simp only [pairCells, List.map_cons, List.map_nil, String.ofList_toList]
  rw [cells]
  rfl

/-- The text of a matrix and its states make the same vocabulary, whatever plain labels it has. -/
theorem ofCsv_matrixText {pairs : List (String × String)}
    (plain : ∀ pair ∈ pairs, Csv.Plain pair.1.toList ∧ Csv.Plain pair.2.toList) :
    ofCsv (Utf8.encode (matrixText pairs)) = .ok (ofStates (pairs.map fun pair => .ofPair pair.1 pair.2)) := by
  have header : ∀ cell ∈ headerCells.1 :: headerCells.2, Csv.Plain cell := by decide +kernel
  have names : (headerCells.1 :: headerCells.2).map String.ofList = State.columnNames := by decide +kernel
  have cells : ∀ row ∈ headerCells :: pairs.map pairCells, ∀ cell ∈ row.1 :: row.2, Csv.Plain cell := by
    refine List.forall_mem_cons.mpr ⟨header, List.forall_mem_map.mpr fun pair member => ?_⟩
    obtain ⟨operation, environment⟩ := plain pair member
    simpa [pairCells, operation, environment] using plain_deriveStateId operation environment
  have table := Csv.readTable_written cells (by decide +kernel)
  rw [← matrixText_eq, names] at table
  rw [ofCsv_matrix (by rw [table]), matrix, table]
  simp only [List.map_map, Function.comp_def]
  rw [List.map_congr_left fun pair _ => ofRow_pair pair]

/-- Labels beyond ASCII, the name of a column, the delimiter of identifiers, and a repeated pair. -/
def oddPairs : List (String × String) :=
  [("größe", "primitive"), ("a_CTX_b", "state_id"), ("größe", "primitive"), ("two words", "_CTX_")]

theorem ofCsv_oddPairs :
    (∀ pair ∈ oddPairs, Csv.Plain pair.1.toList ∧ Csv.Plain pair.2.toList) ∧
      ofCsv (Utf8.encode (matrixText oddPairs)) = .ok (ofStates (oddPairs.map fun pair => .ofPair pair.1 pair.2)) := by
  have plain : ∀ pair ∈ oddPairs, Csv.Plain pair.1.toList ∧ Csv.Plain pair.2.toList := by decide +kernel
  exact ⟨plain, ofCsv_matrixText plain⟩

end Vocabulary

end StateAudit
