import StateAudit.Csv.Row
import StateAudit.Text.Blank

/-! Tables: a header and rows of text. Fields are trimmed. A field that is not UTF-8 breaks
the table at its row, and the rows before it stand. -/

namespace StateAudit.Csv

/-- A field that is not UTF-8: its row, its number in the row, and the index of the bad sequence. -/
structure BadField where
  number : Nat
  place : Place
  field : Nat
  index : Nat
deriving DecidableEq

def BadField.message (bad : BadField) : String :=
  s!"CSV parse error: record {bad.number} (line {bad.place.line}, field: {bad.field}, byte: {bad.place.byte}): " ++
    s!"invalid utf-8: invalid UTF-8 in field {bad.field} near byte index {bad.index}"

def isAsciiBlank (byte : UInt8) : Bool :=
  byte == 32 || byte == 9 || byte == 10 || byte == 12 || byte == 13

def trimBytes (field : Bytes) : Bytes :=
  ((field.dropWhile isAsciiBlank).reverse.dropWhile isAsciiBlank).reverse

def decodeFields (row : Row) (field : Nat) : List Bytes → Except BadField (List String)
  | [] => .ok []
  | bytes :: rest =>
    match Utf8.decode bytes with
    | .error index => .error ⟨row.number, row.place, field, index⟩
    | .ok text => match decodeFields row (field + 1) rest with
      | .error bad => .error bad
      | .ok texts => .ok (String.ofList (Text.trim text) :: texts)

/-- The header is read as it stands and trimmed as text. -/
def decodeHeader (row : Row) : Except BadField (List String) := decodeFields row 0 row.fields

/-- Other rows lose their ASCII blanks before they are read. -/
def decodeRow (row : Row) : Except BadField (List String) :=
  decodeFields row 0 (row.fields.map trimBytes)

structure Table where
  header : List String := []
  rows : List (List String) := []
  broken : Option BadField := none
deriving DecidableEq

def decodeRows : List Row → List (List String) × Option BadField
  | [] => ([], none)
  | row :: rest =>
    match decodeRow row with
    | .error bad => ([], some bad)
    | .ok texts =>
      let (rows, broken) := decodeRows rest
      (texts :: rows, broken)

/-- Reads a table from an input, or from the beginning of one that breaks off. -/
def readTable (whole : Bool) (input : Bytes) : Table :=
  match rows whole input with
  | [] => {}
  | first :: rest =>
    match decodeHeader first with
    | .error bad => { broken := some bad }
    | .ok header =>
      let (rows, broken) := decodeRows rest
      { header, rows, broken }

end StateAudit.Csv
