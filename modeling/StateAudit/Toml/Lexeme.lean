import StateAudit.Decimal.Basic

/-! The smallest parts of a TOML document: blanks, comments, line ends, strings and keys. A
reader gives what it read and the text after it, or nothing. -/

namespace StateAudit.Toml

abbrev Reading (α : Type) := Option (α × List Char)

def isBlank (char : Char) : Bool := char == ' ' || char == '\t'

def skipBlanks (text : List Char) : List Char := text.dropWhile isBlank

/-- Characters of a line: tabs, and everything but the ASCII control characters. -/
def isVisible (char : Char) : Bool := char == '\t' || (0x20 ≤ char.toNat && char.toNat != 0x7F)

def lineBreak? : List Char → Option (List Char)
  | '\n' :: rest => some rest
  | '\r' :: '\n' :: rest => some rest
  | _ => none

/-- Reads to the end of a line on which only blanks and a comment may follow. -/
def lineEnd? (text : List Char) : Option (List Char) :=
  let rest := match skipBlanks text with
    | '#' :: rest => rest.dropWhile isVisible
    | rest => rest
  if rest.isEmpty then some [] else lineBreak? rest

/-- Skips blanks, line breaks and comments with their line break, up to what is neither. -/
def skipTrivia (inComment : Bool) : List Char → List Char
  | [] => []
  | '\n' :: rest => skipTrivia false rest
  | '\r' :: '\n' :: rest => skipTrivia false rest
  | char :: rest =>
    if inComment then (if isVisible char then skipTrivia true rest else char :: rest)
    else if isBlank char then skipTrivia false rest
    else if char = '#' then skipTrivia true rest
    else char :: rest

def hexValue? (char : Char) : Option Nat :=
  if '0' ≤ char ∧ char ≤ '9' then some (char.toNat - 48)
  else if 'a' ≤ char ∧ char ≤ 'f' then some (char.toNat - 87)
  else if 'A' ≤ char ∧ char ≤ 'F' then some (char.toNat - 55)
  else none

/-- Exactly `count` hexadecimal digits that name a character. -/
def codePoint (read : Nat) : (count : Nat) → List Char → Reading Char
  | 0, text => if read.isValidChar then some (Char.ofNat read, text) else none
  | _, [] => none
  | count + 1, char :: rest => (hexValue? char).bind fun digit => codePoint (read * 16 + digit) count rest

def escape : List Char → Reading Char
  | 'b' :: rest => some ('\x08', rest)
  | 'f' :: rest => some ('\x0c', rest)
  | 'n' :: rest => some ('\n', rest)
  | 'r' :: rest => some ('\r', rest)
  | 't' :: rest => some ('\t', rest)
  | '"' :: rest => some ('"', rest)
  | '\\' :: rest => some ('\\', rest)
  | 'u' :: rest => codePoint 0 4 rest
  | 'U' :: rest => codePoint 0 8 rest
  | _ => none

/-- A string on one line after its opening quote, with the characters of `read` reversed
behind it. No text is longer than its `bound`. -/
def basicBody (read : List Char) : (bound text : List Char) → Reading String
  | [], _ => none
  | _, [] => none
  | _ :: bound, char :: rest =>
    if char = '"' then some (String.ofList read.reverse, rest)
    else if char = '\\' then (escape rest).bind fun (char, rest) => basicBody (char :: read) bound rest
    else if isVisible char then basicBody (char :: read) bound rest
    else none

def literalBody (read : List Char) : List Char → Reading String
  | [] => none
  | char :: rest =>
    if char = '\'' then some (String.ofList read.reverse, rest)
    else if isVisible char then literalBody (char :: read) rest
    else none

def skipBlankLines : List Char → List Char
  | [] => []
  | '\r' :: '\n' :: rest => skipBlankLines rest
  | char :: rest => if isBlank char || char == '\n' then skipBlankLines rest else char :: rest

/-- After a backslash: the text past a line break and the blanks that it joins. -/
def joinedLine? (text : List Char) : Option (List Char) := (lineBreak? (skipBlanks text)).map skipBlankLines

/-- A string of many lines after its opening. Up to two quotes are text; three to five close
it, and those past three are text before the end. -/
def manyLines (quote : Char) (escapes : Bool) (read : List Char) : (bound text : List Char) → Reading String
  | [], _ => none
  | _, [] => none
  | _ :: bound, char :: rest =>
    if char = quote then
      let run := (char :: rest).takeWhile (· == quote)
      let after := (char :: rest).dropWhile (· == quote)
      if run.length < 3 then manyLines quote escapes (run ++ read) bound after
      else if 5 < run.length then none
      else some (String.ofList (run.drop 3 ++ read).reverse, after)
    else if escapes ∧ char = '\\' then
      match joinedLine? rest with
      | some rest => manyLines quote escapes read bound rest
      | none => (escape rest).bind fun (char, rest) => manyLines quote escapes (char :: read) bound rest
    else match lineBreak? (char :: rest) with
      | some rest => manyLines quote escapes ('\n' :: read) bound rest
      | none => if isVisible char then manyLines quote escapes (char :: read) bound rest else none

/-- A line break right after the opening is not part of the string. -/
def dropFirstBreak (text : List Char) : List Char := (lineBreak? text).getD text

def string : List Char → Reading String
  | '"' :: '"' :: '"' :: rest => manyLines '"' true [] rest (dropFirstBreak rest)
  | '"' :: rest => basicBody [] rest rest
  | '\'' :: '\'' :: '\'' :: rest => manyLines '\'' false [] rest (dropFirstBreak rest)
  | '\'' :: rest => literalBody [] rest
  | _ => none

def isBare (char : Char) : Bool := char.isAlphanum || char == '-' || char == '_'

def keyPart : List Char → Reading String
  | '"' :: rest => basicBody [] rest rest
  | '\'' :: rest => literalBody [] rest
  | text =>
    let bare := text.takeWhile isBare
    if bare.isEmpty then none else some (String.ofList bare, text.dropWhile isBare)

def keyParts (read : List String) : (fuel : Nat) → List Char → Reading (List String)
  | 0, _ => none
  | fuel + 1, text => (keyPart (skipBlanks text)).bind fun (part, rest) =>
    match skipBlanks rest with
    | '.' :: rest => keyParts (part :: read) fuel rest
    | rest => some ((part :: read).reverse, rest)

/-- The most parts that a key has, and the most brackets that a value is inside of. -/
def nestingLimit : Nat := 79

/-- A key with the keys of the tables around it. -/
def key (text : List Char) : Reading (List String × String) :=
  (keyParts [] nestingLimit text).bind fun (parts, rest) =>
    parts.getLast?.map fun last => ((parts.dropLast, last), rest)

end StateAudit.Toml
