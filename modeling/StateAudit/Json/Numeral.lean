import StateAudit.Json.Value
import StateAudit.Json.Failure
import StateAudit.Decimal.Basic
import StateAudit.Binary64.Arithmetic

/-! Reading JSON numbers. Whole numbers of 64 bits stay exact. Any other number becomes a
double from a significand of at most 64 bits, scaled by one power of ten after another with
a rounding at each step, so the result can miss the nearest double. -/

namespace StateAudit.Json.Numeral

def wordLimit : Nat := Nat.pow 2 64

/-- Takes digits into the significand while it stays a 64-bit word; gives the digits left over. -/
def absorb (significand : Nat) : List Char → Nat × List Char
  | [] => (significand, [])
  | char :: rest =>
    let next := significand * 10 + Decimal.digitValue char
    if next < wordLimit then absorb next rest else (significand, char :: rest)

def powerOfTen (exponent : Nat) : Binary64 := Binary64.ofNat (Nat.pow 10 exponent)

/-- Divides by the largest power of ten, `steps` times or until nothing is left. -/
def divideDown (x : Binary64) : (steps : Nat) → Binary64
  | 0 => x
  | steps + 1 => if x.code = 0 then x else divideDown (x / powerOfTen 308) steps

/-- Divides by a positive power of ten, by at most the 308th at a time. -/
def scaleDown (x : Binary64) (exponent : Nat) : Binary64 :=
  let steps := (exponent - 1) / 308
  divideDown x steps / powerOfTen (exponent - 308 * steps)

/-- A significand times a power of ten, unless it exceeds every double. -/
def scale? (significand : Nat) (exponent : Int) : Option Binary64 :=
  let x := Binary64.ofNat significand
  if exponent < 0 then some (scaleDown x exponent.natAbs)
  else if exponent ≤ 308 then
    let product := x * powerOfTen exponent.natAbs
    if product.isInfinite then none else some product
  else if significand = 0 then some x
  else none

def signed (negative : Bool) (x : Binary64) : Binary64 := if negative then -x else x

def exponentLimit : Nat := Nat.pow 2 31

/-- Reads exponent digits: the exponent, or `none` where it passes the limit, with the text
right after the digit that decides. -/
def exponentDigits (read : Nat) : List Char → Option Nat × List Char
  | [] => (some read, [])
  | char :: rest =>
    if Decimal.isDigit char then
      let next := read * 10 + Decimal.digitValue char
      if next < exponentLimit then exponentDigits next rest else (none, rest)
    else (some read, char :: rest)

def finish (negative : Bool) (significand : Nat) (exponent : Int) (rest : List Char) : Reading Number :=
  match scale? significand exponent with
  | some x => .ok (.double (signed negative x), rest)
  | none => stop .numberOutOfRange rest

def exponentPart (negative : Bool) (significand : Nat) (exponent : Int) (text : List Char) : Reading Number :=
  let (down, text) := match text with
    | '+' :: rest => (false, rest)
    | '-' :: rest => (true, rest)
    | text => (false, text)
  match text with
  | [] => stop .endInValue text
  | char :: _ =>
    if Decimal.isDigit char then
      match exponentDigits 0 text with
      | (some read, rest) => finish negative significand (if down then exponent - read else exponent + read) rest
      | (none, rest) =>
        if significand ≠ 0 ∧ !down then stop .numberOutOfRange rest
        else .ok (.double (signed negative (Binary64.zero false)), rest.dropWhile Decimal.isDigit)
    else stopAt .invalidNumber text

def isExponentMark (char : Char) : Bool := char == 'e' || char == 'E'

def afterDigits (negative : Bool) (significand : Nat) (exponent : Int) : List Char → Reading Number
  | [] => finish negative significand exponent []
  | char :: rest =>
    if isExponentMark char then exponentPart negative significand exponent rest
    else finish negative significand exponent (char :: rest)

def fractionPart (negative : Bool) (significand : Nat) (exponent : Int) (text : List Char) : Reading Number :=
  let row := text.takeWhile Decimal.isDigit
  let rest := text.dropWhile Decimal.isDigit
  if row.isEmpty then
    if rest.isEmpty then stop .endInValue rest else stopAt .invalidNumber rest
  else
    let (significand, dropped) := absorb significand row
    afterDigits negative significand (exponent - (row.length - dropped.length : Nat)) rest

/-- A number with neither point nor exponent. Zero keeps a minus sign only as a double. -/
def whole (negative : Bool) (significand : Nat) : Number :=
  if !negative then .whole significand
  else if significand = 0 ∨ Nat.pow 2 63 < significand then .double (-Binary64.ofNat significand)
  else .whole (-significand)

def read (negative : Bool) (text : List Char) : Reading Number :=
  let row := text.takeWhile Decimal.isDigit
  let rest := text.dropWhile Decimal.isDigit
  match row with
  | [] => if text.isEmpty then stop .endInValue text else stopAt .invalidNumber text
  | '0' :: next :: more => stopAt .invalidNumber (next :: more ++ rest)
  | row =>
    let (significand, dropped) := absorb 0 row
    match rest with
    | '.' :: rest => fractionPart negative significand dropped.length rest
    | rest =>
      if dropped.isEmpty && !(rest.head?.any isExponentMark) then .ok (whole negative significand, rest)
      else afterDigits negative significand dropped.length rest

end StateAudit.Json.Numeral
