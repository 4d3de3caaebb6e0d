import StateAudit.Decimal.Nearest
import StateAudit.Toml.Lexeme
import StateAudit.Toml.Value

/-! TOML numbers. An underscore stands only between two digits; whole numbers have 64 bits and
a sign; a decimal becomes the nearest double, and none becomes positive infinity. Of an
exponent only as many digits count as it takes to pass its limit. -/

namespace StateAudit.Toml

/-- Digits after the first one, with underscores between them and those of `read` reversed
behind them. -/
def digitsAfter (isDigit : Char → Bool) (read : List Char) : List Char → Reading (List Char)
  | [] => some (read.reverse, [])
  | '_' :: [] => none
  | '_' :: char :: rest => if isDigit char then digitsAfter isDigit (char :: read) rest else none
  | char :: rest =>
    if isDigit char then digitsAfter isDigit (char :: read) rest else some (read.reverse, char :: rest)

def digitRow (isDigit : Char → Bool) : List Char → Reading (List Char)
  | [] => none
  | char :: rest => if isDigit char then digitsAfter isDigit [char] rest else none

def sign : List Char → Bool × List Char
  | '+' :: rest => (false, rest)
  | '-' :: rest => (true, rest)
  | text => (false, text)

/-- Decimal digits with no zero before others. -/
def wholeRow : List Char → Reading (List Char)
  | '0' :: rest => some (['0'], rest)
  | text => digitRow Decimal.isDigit text

def exponentLimit : Nat := Nat.pow 2 16

/-- The exponent that a row of digits writes; those after it has passed the limit say nothing. -/
def exponentValue (row : List Char) : Nat :=
  row.foldl (fun read char => if read < exponentLimit then 10 * read + Decimal.digitValue char else read) 0

def exponent (text : List Char) : Reading Int :=
  match text with
  | mark :: rest =>
    if mark = 'e' ∨ mark = 'E' then
      let (negative, rest) := sign rest
      (digitRow Decimal.isDigit rest).map fun (row, rest) =>
        ((if negative then -(exponentValue row : Int) else exponentValue row), rest)
    else none
  | [] => none

def decimalPart (text : List Char) : Reading (List Char × Int) :=
  match text with
  | '.' :: rest => (digitRow Decimal.isDigit rest).map fun (fraction, rest) =>
    match exponent rest with
    | some (power, rest) => ((fraction, power), rest)
    | none => ((fraction, 0), rest)
  | _ => (exponent text).map fun (power, rest) => (([], power), rest)

def float (text : List Char) : Reading Value :=
  let (negative, rest) := sign text
  (wholeRow rest).bind fun (whole, rest) =>
    (decimalPart rest).bind fun ((fraction, power), rest) =>
      let x := Decimal.nearestOfDigits negative (whole ++ fraction) (power - fraction.length)
      if x = Binary64.infinity false then none else some (.float x, rest)

def specialFloat (text : List Char) : Reading Value :=
  match sign text with
  | (negative, 'i' :: 'n' :: 'f' :: rest) => some (.float (Binary64.infinity negative), rest)
  | (_, 'n' :: 'a' :: 'n' :: rest) => some (.float Binary64.nan, rest)
  | _ => none

def inRange (value : Int) : Bool := -(Nat.pow 2 63 : Int) ≤ value && value < Nat.pow 2 63

/-- The whole number that a row of digits writes, if 64 bits and a sign hold it. -/
def integerOf (negative : Bool) (base : Nat) (row rest : List Char) : Reading Value :=
  let magnitude := row.foldl (fun read char => min (Nat.pow 2 64) (base * read + (hexValue? char).getD 0)) 0
  let value : Int := if negative then -magnitude else magnitude
  if inRange value then some (.integer value, rest) else none

/-- A whole number to a power-of-two base, after the letter of the base. -/
def based (base : Nat) (text : List Char) : Reading Value :=
  let isDigit (char : Char) : Bool := (hexValue? char).any (· < base)
  (digitRow isDigit text).bind fun (row, rest) => integerOf false base row rest

def integer (text : List Char) : Reading Value :=
  match text with
  | '0' :: 'x' :: rest => based 16 rest
  | '0' :: 'o' :: rest => based 8 rest
  | '0' :: 'b' :: rest => based 2 rest
  | _ =>
    let (negative, rest) := sign text
    (wholeRow rest).bind fun (row, rest) => integerOf negative 10 row rest

end StateAudit.Toml
