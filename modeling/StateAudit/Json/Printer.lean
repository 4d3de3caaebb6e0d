import StateAudit.Json.Value
import StateAudit.Decimal.Shortest

/-! JSON text. The compact form has no blanks; the indented form gives every item of a
non-empty list or object a line of its own, two spaces deeper than the brackets around it. -/

namespace StateAudit.Json

/-- Doubles are positional from 10^-5 up to 10^16 and scientific outside. -/
def doubleLayout : Decimal.Layout := { lowest := -5, highest := 15 }

/-- What is not finite has no JSON text and stands as `null`. -/
def printNumber : Number → List Char
  | .whole value => Decimal.signed value
  | .double value => if value.isFinite then doubleLayout.print value else "null".toList

def hexDigit (value : Nat) : Char := Nat.digitChar (value % 16)

def printChar (char : Char) : List Char :=
  match char with
  | '"' => ['\\', '"']
  | '\\' => ['\\', '\\']
  | '\n' => ['\\', 'n']
  | '\r' => ['\\', 'r']
  | '\t' => ['\\', 't']
  | '\x08' => ['\\', 'b']
  | '\x0c' => ['\\', 'f']
  | char =>
    if char.toNat < 0x20 then ['\\', 'u', '0', '0', hexDigit (char.toNat / 16), hexDigit char.toNat]
    else [char]

def printString (text : String) (rest : List Char) : List Char :=
  '"' :: text.toList.foldr (fun char rest => printChar char ++ rest) ('"' :: rest)

def printBool (value : Bool) : List Char := if value then "true".toList else "false".toList

mutual
def print : Json → (rest : List Char) → List Char
  | .null, rest => "null".toList ++ rest
  | .bool value, rest => printBool value ++ rest
  | .number value, rest => printNumber value ++ rest
  | .string text, rest => printString text rest
  | .array items, rest => '[' :: printItems items (']' :: rest)
  | .object members, rest => '\x7b' :: printMembers members ('\x7d' :: rest)
termination_by structural value => value

def printItems : List Json → (rest : List Char) → List Char
  | [], rest => rest
  | item :: others, rest => print item (if others.isEmpty then rest else ',' :: printItems others rest)
termination_by structural items => items

def printMembers : List (String × Json) → (rest : List Char) → List Char
  | [], rest => rest
  | (key, value) :: others, rest =>
    printString key (':' :: print value (if others.isEmpty then rest else ',' :: printMembers others rest))
termination_by structural members => members
end

def lineBreak (depth : Nat) (rest : List Char) : List Char := '\n' :: (List.replicate (2 * depth) ' ' ++ rest)

mutual
/-- The indented form of a value whose brackets stand at `depth`, before the text that follows it. -/
def indent (depth : Nat) : Json → (rest : List Char) → List Char
  | .null, rest => "null".toList ++ rest
  | .bool value, rest => printBool value ++ rest
  | .number value, rest => printNumber value ++ rest
  | .string text, rest => printString text rest
  | .array [], rest => '[' :: ']' :: rest
  | .array items, rest => '[' :: indentItems (depth + 1) items (lineBreak depth (']' :: rest))
  | .object [], rest => '\x7b' :: '\x7d' :: rest
  | .object members, rest => '\x7b' :: indentMembers (depth + 1) members (lineBreak depth ('\x7d' :: rest))
termination_by structural value => value

def indentItems (depth : Nat) : List Json → (rest : List Char) → List Char
  | [], rest => rest
  | item :: others, rest =>
    lineBreak depth (indent depth item (if others.isEmpty then rest else ',' :: indentItems depth others rest))
termination_by structural items => items

def indentMembers (depth : Nat) : List (String × Json) → (rest : List Char) → List Char
  | [], rest => rest
  | (key, value) :: others, rest =>
    lineBreak depth (printString key (':' :: ' ' :: indent depth value
      (if others.isEmpty then rest else ',' :: indentMembers depth others rest)))
termination_by structural members => members
end

def compact (value : Json) : String := String.ofList (value.print [])

def pretty (value : Json) : String := String.ofList (value.indent 0 [])

end StateAudit.Json
