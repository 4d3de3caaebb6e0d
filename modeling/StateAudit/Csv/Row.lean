import StateAudit.Text.Utf8

/-! Comma-separated rows. A line feed or a carriage return ends a row, and rows without a
byte are skipped. A field that begins with a quote runs to the quote that closes it; inside
it a quote is written twice, and what follows the closing quote belongs to the field too. -/

namespace StateAudit.Csv

def comma : UInt8 := 44
def quote : UInt8 := 34
def lineFeed : UInt8 := 10
def carriageReturn : UInt8 := 13

def isTerminator (byte : UInt8) : Bool := byte == lineFeed || byte == carriageReturn

/-- A place in the input: lines count from 1, bytes from 0. -/
structure Place where
  line : Nat := 1
  byte : Nat := 0
deriving DecidableEq

def Place.step (place : Place) (byte : UInt8) : Place :=
  { line := if byte == lineFeed then place.line + 1 else place.line, byte := place.byte + 1 }

inductive Mode where
  | fieldStart
  | bare
  | quoted
  | quoteSeen

/-- The fields of a row, never none, and what follows it. A row that no byte ends has the end
of the input for its own. -/
structure Scan where
  first : Bytes
  others : List Bytes
  ended : Bool
  rest : Bytes
  place : Place

def Scan.addByte (byte : UInt8) (scan : Scan) : Scan := { scan with first := byte :: scan.first }

def Scan.addField (scan : Scan) : Scan :=
  { scan with first := [], others := scan.first :: scan.others }

def Scan.fields (scan : Scan) : List Bytes := scan.first :: scan.others

def scan (mode : Mode) (place : Place) : Bytes → Scan
  | [] => ⟨[], [], false, [], place⟩
  | byte :: rest =>
    let next := place.step byte
    match mode with
    | .quoted =>
      if byte == quote then scan .quoteSeen next rest
      else (scan .quoted next rest).addByte byte
    | .quoteSeen =>
      if byte == quote then (scan .quoted next rest).addByte byte
      else if byte == comma then (scan .fieldStart next rest).addField
      else if isTerminator byte then ⟨[], [], true, rest, next⟩
      else (scan .bare next rest).addByte byte
    | .fieldStart =>
      if byte == quote then scan .quoted next rest
      else if byte == comma then (scan .fieldStart next rest).addField
      else if isTerminator byte then ⟨[], [], true, rest, next⟩
      else (scan .bare next rest).addByte byte
    | .bare =>
      if byte == comma then (scan .fieldStart next rest).addField
      else if isTerminator byte then ⟨[], [], true, rest, next⟩
      else (scan .bare next rest).addByte byte

def skipTerminators (place : Place) : Bytes → Place × Bytes
  | [] => (place, [])
  | byte :: rest => if isTerminator byte then skipTerminators (place.step byte) rest else (place, byte :: rest)

/-- Skips a byte order mark at the very beginning, then ends of rows. -/
def skipLead (place : Place) (input : Bytes) : Place × Bytes :=
  match place.byte, input with
  | 0, 0xEF :: 0xBB :: 0xBF :: rest => skipTerminators { place with byte := 3 } rest
  | _, input => skipTerminators place input

/-- A row with its number and the place where the row before it ended. -/
structure Row where
  number : Nat
  place : Place
  fields : List Bytes

/-- Rows that follow `number` others. Of an input that is not whole the last row counts only
when a byte ends it. -/
def rowsFrom (whole : Bool) (number : Nat) (place : Place) : (fuel : Nat) → Bytes → List Row
  | 0, _ => []
  | fuel + 1, input =>
    let (start, body) := skipLead place input
    if body.isEmpty then []
    else
      let found := scan .fieldStart start body
      if !whole && !found.ended then []
      else ⟨number, place, found.fields⟩ :: rowsFrom whole (number + 1) found.place fuel found.rest

def rows (whole : Bool) (input : Bytes) : List Row := rowsFrom whole 0 {} input.length input

end StateAudit.Csv
