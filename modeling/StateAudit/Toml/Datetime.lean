import StateAudit.Toml.Lexeme

/-! Dates and times, read into their normal form: a `T` between date and time, nine places of
a second at most and no zero at their end, and no sign on an offset of zero. -/

namespace StateAudit.Toml

def ranged (count low high : Nat) (text : List Char) : Reading Nat :=
  let row := text.take count
  let read := Decimal.value row
  if row.length = count ∧ row.all Decimal.isDigit ∧ low ≤ read ∧ read ≤ high then some (read, text.drop count)
  else none

def expect (wanted : Char) : List Char → Option (List Char)
  | [] => none
  | char :: rest => if char = wanted then some rest else none

def padded (width value : Nat) : List Char :=
  let row := Decimal.digits value
  List.replicate (width - row.length) '0' ++ row

def isLeapYear (year : Nat) : Bool := year % 4 == 0 && (year % 100 != 0 || year % 400 == 0)

def daysIn (year month : Nat) : Nat :=
  if month = 2 then (if isLeapYear year then 29 else 28)
  else if month = 4 ∨ month = 6 ∨ month = 9 ∨ month = 11 then 30
  else 31

def date (text : List Char) : Option (List Char × List Char) := do
  let (year, text) ← ranged 4 0 9999 text
  let text ← expect '-' text
  let (month, text) ← ranged 2 1 12 text
  let text ← expect '-' text
  let (day, text) ← ranged 2 1 (daysIn year month) text
  return (padded 4 year ++ '-' :: padded 2 month ++ '-' :: padded 2 day, text)

def places (text : List Char) : List Char × List Char :=
  match text with
  | '.' :: rest =>
    let row := rest.takeWhile Decimal.isDigit
    if row.isEmpty then ([], text)
    else
      let kept := ((row.take 9).reverse.dropWhile (· == '0')).reverse
      (if kept.isEmpty then [] else '.' :: kept, rest.dropWhile Decimal.isDigit)
  | _ => ([], text)

def time (text : List Char) : Option (List Char × List Char) := do
  let (hour, text) ← ranged 2 0 23 text
  let text ← expect ':' text
  let (minute, text) ← ranged 2 0 59 text
  let text ← expect ':' text
  let (second, text) ← ranged 2 0 60 text
  let (fraction, text) := places text
  return (padded 2 hour ++ ':' :: padded 2 minute ++ ':' :: padded 2 second ++ fraction, text)

def numericOffset (sign : Char) (text : List Char) : Option (List Char × List Char) := do
  let (hour, text) ← ranged 2 0 23 text
  let text ← expect ':' text
  let (minute, text) ← ranged 2 0 59 text
  let sign := if hour = 0 ∧ minute = 0 then '+' else sign
  return (sign :: padded 2 hour ++ ':' :: padded 2 minute, text)

def offset : List Char → Reading (List Char)
  | 'Z' :: rest => some (['Z'], rest)
  | 'z' :: rest => some (['Z'], rest)
  | '+' :: rest => numericOffset '+' rest
  | '-' :: rest => numericOffset '-' rest
  | text => some ([], text)

def isTimeMark (char : Char) : Bool := char == 'T' || char == 't' || char == ' '

def timeAfterDate (text : List Char) : Reading (List Char) :=
  match text with
  | mark :: rest =>
    if isTimeMark mark then
      match time rest with
      | none => some ([], text)
      | some (time, rest) => (offset rest).map fun (offset, rest) => ('T' :: time ++ offset, rest)
    else some ([], text)
  | [] => some ([], [])

def datetime (text : List Char) : Reading String :=
  match date text with
  | some (date, rest) => (timeAfterDate rest).map fun (time, rest) => (String.ofList (date ++ time), rest)
  | none => (time text).map fun (time, rest) => (String.ofList time, rest)

end StateAudit.Toml
