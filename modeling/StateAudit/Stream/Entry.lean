import StateAudit.Record
import StateAudit.Stream.Line
import StateAudit.Text.Blank

/-! Entries: the lines of an audit log that are not blank. Every line counts for the line
numbers, also a blank one. -/

namespace StateAudit.Stream

inductive Entry where
  | record (line : Nat) (record : Record)
  | malformed (line : Nat) (error : RecordError)
  | failed (line : Nat) (fault : Files.Fault)

/-- What a line holds; nothing when it is blank. -/
def readLine? (content : Bytes) : Option (Except RecordError Record) :=
  match Utf8.decode? content with
  | none => some (.error .encoding)
  | some text => if text.all Text.isBlank then none else some (Record.parse text)

def Entry.ofResult (line : Nat) : Except RecordError Record → Entry
  | .ok found => .record line found
  | .error error => .malformed line error

/-- The entries of lines that follow `number` others. A failed read is no line. -/
def entriesFrom (number : Nat) : List Line → List Entry
  | [] => []
  | .failed fault :: rest => .failed number fault :: entriesFrom number rest
  | .full content :: rest => match readLine? content with
    | none => entriesFrom (number + 1) rest
    | some result => .ofResult (number + 1) result :: entriesFrom (number + 1) rest

def entries (chunks : List Chunk) : List Entry := entriesFrom 0 (lines chunks)

def Line.isFull : Line → Bool
  | .full _ => true
  | .failed _ => false

def lineCount (chunks : List Chunk) : Nat := (lines chunks).countP Line.isFull

end StateAudit.Stream
