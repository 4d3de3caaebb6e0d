import StateAudit.Json.Numeral

/-! Reading JSON. Brackets nest to a fixed depth, which is what the recursion counts; of
members with one key the last is kept, and the keys are put in increasing order. -/

namespace StateAudit.Json.Parser

def isSpace (char : Char) : Bool := char == ' ' || char == '\n' || char == '\t' || char == '\r'

def skipSpace (text : List Char) : List Char := text.dropWhile isSpace

def word (value : Json) : (expected text : List Char) → Reading Json
  | [], text => .ok (value, text)
  | _ :: _, [] => stop .endInValue []
  | wanted :: expected, char :: text =>
    if char = wanted then word value expected text else stopAt .expectedIdent (char :: text)

def hexValue? (char : Char) : Option Nat :=
  if '0' ≤ char ∧ char ≤ '9' then some (char.toNat - 48)
  else if 'a' ≤ char ∧ char ≤ 'f' then some (char.toNat - 87)
  else if 'A' ≤ char ∧ char ≤ 'F' then some (char.toNat - 55)
  else none

/-- Four hexadecimal digits; the count of bytes decides before their kind. -/
def hexUnit (text : List Char) : Reading Nat :=
  if Utf8.size (text.take 4) < 4 then stop .endInString []
  else match text with
    | a :: b :: c :: d :: rest =>
      match hexValue? a, hexValue? b, hexValue? c, hexValue? d with
      | some a, some b, some c, some d => .ok (a * 4096 + b * 256 + c * 16 + d, rest)
      | _, _, _, _ => .error ⟨.invalidEscape, text, 4⟩
    | _ => .error ⟨.invalidEscape, text, 4⟩

def isTrailing (unit : Nat) : Bool := 0xDC00 ≤ unit && unit < 0xE000

def isLeading (unit : Nat) : Bool := 0xD800 ≤ unit && unit < 0xDC00

def trailingUnit (leading : Nat) : List Char → Reading Char
  | [] => stop .endInString []
  | '\\' :: [] => stop .endInString []
  | '\\' :: 'u' :: text => (hexUnit text).andThen fun trailing rest =>
    if isTrailing trailing then
      .ok (Char.ofNat ((leading - 0xD800) * 1024 + (trailing - 0xDC00) + 0x10000), rest)
    else stop .loneSurrogate rest
  | '\\' :: text => stopAt .endOfEscape text
  | text => stopAt .endOfEscape text

def escape : List Char → Reading Char
  | [] => stop .endInString []
  | 'u' :: text => (hexUnit text).andThen fun unit rest =>
    if isTrailing unit then stop .loneSurrogate rest
    else if isLeading unit then trailingUnit unit rest
    else .ok (Char.ofNat unit, rest)
  | char :: rest =>
    match char with
    | '"' => .ok ('"', rest)
    | '\\' => .ok ('\\', rest)
    | '/' => .ok ('/', rest)
    | 'b' => .ok ('\x08', rest)
    | 'f' => .ok ('\x0c', rest)
    | 'n' => .ok ('\n', rest)
    | 'r' => .ok ('\r', rest)
    | 't' => .ok ('\t', rest)
    | char => stopAt .invalidEscape (char :: rest)

/-- Reads a string after its opening quote, with the characters of `read` reversed behind it.
No text is longer than its `bound`. -/
def stringBody (read : List Char) : (bound text : List Char) → Reading String
  | _, [] => stop .endInString []
  | [], text => stop .endInString text
  | _ :: bound, char :: rest =>
    if char = '"' then .ok (String.ofList read.reverse, rest)
    else if char = '\\' then
      (escape rest).andThen fun char rest => stringBody (char :: read) bound rest
    else if char.toNat < 0x20 then stopAt .controlCharacter (char :: rest)
    else stringBody (char :: read) bound rest

def string (text : List Char) : Reading String := stringBody [] text text

def items (item : List Char → Reading Json) (read : List Json) : (bound text : List Char) → Reading Json
  | [], text => stop .endInList text
  | _ :: bound, text => (item text).andThen fun value text =>
    match skipSpace text with
    | [] => stop .endInList []
    | ']' :: rest => .ok (.array (value :: read).reverse, rest)
    | ',' :: rest =>
      match skipSpace rest with
      | [] => stop .endInValue []
      | ']' :: rest => stopAt .trailingComma (']' :: rest)
      | text => items item (value :: read) bound text
    | text => stopAt .expectedListCommaOrEnd text

def list (item : List Char → Reading Json) (text : List Char) : Reading Json :=
  match skipSpace text with
  | [] => stop .endInList []
  | ']' :: rest => .ok (.array [], rest)
  | text => items item [] text text

def member (item : List Char → Reading Json) (text : List Char) : Reading (String × Json) :=
  (string text).andThen fun key text => match skipSpace text with
  | [] => stop .endInObject []
  | ':' :: rest => (item rest).andThen fun value rest => .ok ((key, value), rest)
  | text => stopAt .expectedColon text

/-- Reads the members of an object after the quote that opens a key, up to the last bracket. -/
def members (item : List Char → Reading Json) (read : Members) : (bound text : List Char) → Reading Json
  | [], text => stop .endInObject text
  | _ :: bound, text => (member item text).andThen fun (key, value) text =>
    let read := Dictionary.insert key value read
    match skipSpace text with
    | [] => stop .endInObject []
    | '\x7d' :: rest => .ok (.object read, rest)
    | ',' :: rest =>
      match skipSpace rest with
      | [] => stop .endInValue []
      | '"' :: rest => members item read bound rest
      | '\x7d' :: rest => stopAt .trailingComma ('\x7d' :: rest)
      | text => stopAt .keyNotString text
    | text => stopAt .expectedObjectCommaOrEnd text

def dictionary (item : List Char → Reading Json) (text : List Char) : Reading Json :=
  match skipSpace text with
  | [] => stop .endInObject []
  | '\x7d' :: rest => .ok (.object [], rest)
  | '"' :: rest => members item [] ('"' :: rest) rest
  | text => stopAt .keyNotString text

/-- Reads one value in which brackets nest at most `depth` deep. -/
def value : (depth : Nat) → List Char → Reading Json
  | depth, text =>
    match skipSpace text with
    | [] => stop .endInValue []
    | 'n' :: rest => word .null "ull".toList rest
    | 't' :: rest => word (.bool true) "rue".toList rest
    | 'f' :: rest => word (.bool false) "alse".toList rest
    | '"' :: rest => (string rest).andThen fun text rest => .ok (.string text, rest)
    | '[' :: rest =>
      match depth with
      | 0 => stopAt .tooDeep ('[' :: rest)
      | depth + 1 => list (value depth) rest
    | '\x7b' :: rest =>
      match depth with
      | 0 => stopAt .tooDeep ('\x7b' :: rest)
      | depth + 1 => dictionary (value depth) rest
    | '-' :: rest => (Numeral.read true rest).andThen fun number rest => .ok (.number number, rest)
    | char :: rest =>
      if Decimal.isDigit char then
        (Numeral.read false (char :: rest)).andThen fun number rest => .ok (.number number, rest)
      else stopAt .expectedValue (char :: rest)

def depthLimit : Nat := 127

/-- Reads a whole text, which holds one value and blanks around it. -/
def document (text : List Char) : Reading Json :=
  (value depthLimit text).andThen fun value rest => match skipSpace rest with
  | [] => .ok (value, [])
  | char :: rest => stopAt .trailingCharacters (char :: rest)

end StateAudit.Json.Parser

namespace StateAudit.Json

def parse (text : List Char) : Except Error Json :=
  match Parser.document text with
  | .ok (value, _) => .ok value
  | .error failure => .error ⟨failure.cause, failure.position text⟩

end StateAudit.Json
