import StateAudit.Text.Utf8

/-! Why text is not JSON, and where reading stopped. -/

namespace StateAudit.Json

inductive Cause where
  | endInList
  | endInObject
  | endInString
  | endInValue
  | expectedColon
  | expectedListCommaOrEnd
  | expectedObjectCommaOrEnd
  | expectedIdent
  | expectedValue
  | invalidEscape
  | invalidNumber
  | numberOutOfRange
  | controlCharacter
  | keyNotString
  | loneSurrogate
  | trailingComma
  | trailingCharacters
  | endOfEscape
  | tooDeep
deriving DecidableEq

def Cause.message : Cause → String
  | .endInList => "EOF while parsing a list"
  | .endInObject => "EOF while parsing an object"
  | .endInString => "EOF while parsing a string"
  | .endInValue => "EOF while parsing a value"
  | .expectedColon => "expected `:`"
  | .expectedListCommaOrEnd => "expected `,` or `]`"
  | .expectedObjectCommaOrEnd => "expected `,` or `\x7d`"
  | .expectedIdent => "expected ident"
  | .expectedValue => "expected value"
  | .invalidEscape => "invalid escape"
  | .invalidNumber => "invalid number"
  | .numberOutOfRange => "number out of range"
  | .controlCharacter => "control character (\\u0000-\\u001F) found while parsing a string"
  | .keyNotString => "key must be a string"
  | .loneSurrogate => "lone leading surrogate in hex escape"
  | .trailingComma => "trailing comma"
  | .trailingCharacters => "trailing characters"
  | .endOfEscape => "unexpected end of hex escape"
  | .tooDeep => "recursion limit exceeded"

/-- Reading stopped `ahead` bytes into the text that was `left`. -/
structure Failure where
  cause : Cause
  left : List Char
  ahead : Nat

/-- What a reader finds, and the text after it. -/
abbrev Reading (α : Type) := Except Failure (α × List Char)

def Reading.andThen (found : Reading α) (next : α → List Char → Reading β) : Reading β :=
  match found with
  | .ok (value, rest) => next value rest
  | .error failure => .error failure

def stop (cause : Cause) (left : List Char) : Reading α := .error ⟨cause, left, 0⟩

/-- Stops at the next character, which counts as seen. -/
def stopAt (cause : Cause) (left : List Char) : Reading α := .error ⟨cause, left, 1⟩

/-- A place in a text: lines count from 1, and columns count the bytes since the line began. -/
structure Position where
  line : Nat
  column : Nat
deriving DecidableEq

def Position.after (bytes : Bytes) : Position :=
  { line := 1 + bytes.count 10, column := (bytes.reverse.takeWhile (· != 10)).length }

/-- The place of a failure in the whole text; no place lies past its end. -/
def Failure.position (failure : Failure) (text : List Char) : Position :=
  let bytes := Utf8.encode text
  .after (bytes.take (bytes.length - (Utf8.encode failure.left).length + failure.ahead))

structure Error where
  cause : Cause
  position : Position
deriving DecidableEq

def Error.message (error : Error) : String :=
  s!"{error.cause.message} at line {error.position.line} column {error.position.column}"

end StateAudit.Json
