import StateAudit.Toml.Datetime
import StateAudit.Toml.Numeral

/-! Reading a TOML value. Brackets nest to a fixed depth, which is what the recursion counts. -/

namespace StateAudit.Toml.Parser

def word (value : Value) : (expected text : List Char) → Reading Value
  | [], text => some (value, text)
  | _ :: _, [] => none
  | wanted :: expected, char :: text => if char = wanted then word value expected text else none

/-- A date or time, a float or a whole number, whichever comes first. -/
def number (text : List Char) : Reading Value :=
  ((datetime text).map fun (found, rest) => (.datetime found, rest)).orElse fun _ =>
    (float text).orElse fun _ => (specialFloat text).orElse fun _ => integer text

/-- The items of an array up to its closing bracket; a comma may follow the last one. -/
def items (item : List Char → Reading Value) (read : List Value) : (bound text : List Char) → Reading Value
  | [], _ => none
  | _ :: bound, text =>
    match skipTrivia false text with
    | ']' :: rest => some (.array read.reverse, rest)
    | text => (item text).bind fun (value, rest) =>
      match skipTrivia false rest with
      | ']' :: rest => some (.array (value :: read).reverse, rest)
      | ',' :: rest => items item (value :: read) bound rest
      | _ => none

def pair (item : List Char → Reading Value) (text : List Char) : Reading ((List String × String) × Value) :=
  (key text).bind fun (path, rest) =>
    match rest with
    | '=' :: rest => (item (skipBlanks rest)).map fun (value, rest) => ((path, value), rest)
    | _ => none

/-- The pairs of an inline table after its opening brace or a comma. -/
def pairs (item : List Char → Reading Value) (read : Entries) : (bound text : List Char) → Reading Value
  | [], _ => none
  | _ :: bound, text => (pair item text).bind fun (((path, name), value), rest) =>
    (read.put path name value).bind fun read =>
      match skipBlanks rest with
      | ',' :: rest => pairs item read bound rest
      | '\x7d' :: rest => some (.table .inline read, rest)
      | _ => none

def inlineTable (item : List Char → Reading Value) (text : List Char) : Reading Value :=
  match skipBlanks text with
  | '\x7d' :: rest => some (.table .inline [], rest)
  | _ => pairs item [] text text

def value : (depth : Nat) → List Char → Reading Value
  | depth, text =>
    match text with
    | [] => none
    | '"' :: _ => (string text).map fun (found, rest) => (.string found, rest)
    | '\'' :: _ => (string text).map fun (found, rest) => (.string found, rest)
    | 't' :: rest => word (.bool true) "rue".toList rest
    | 'f' :: rest => word (.bool false) "alse".toList rest
    | '[' :: rest =>
      match depth with
      | 0 => none
      | depth + 1 => items (value depth) [] rest rest
    | '\x7b' :: rest =>
      match depth with
      | 0 => none
      | depth + 1 => inlineTable (value depth) rest
    | _ => number text

end StateAudit.Toml.Parser
