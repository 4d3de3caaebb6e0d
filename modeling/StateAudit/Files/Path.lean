/-! Paths as text, so in valid UTF-8 as the names in them are. A slash divides names; empty names,
and dots that are not the first name, say nothing. -/

namespace StateAudit.Files.Path

def split : List Char → List (List Char)
  | [] => [[]]
  | char :: rest =>
    if char = '/' then [] :: split rest
    else match split rest with
      | [] => [[char]]
      | first :: others => (char :: first) :: others

/-- The names in a path, dots among them. -/
def names (path : String) : List String :=
  ((split path.toList).filter (!·.isEmpty)).map String.ofList

def endsInSlash (path : String) : Bool := path.toList.getLast? == some '/'

def isAbsolute (path : String) : Bool := path.toList.head? == some '/'

def join (path name : String) : String :=
  if path.isEmpty || endsInSlash path then path ++ name else path ++ "/" ++ name

/-- Drops slashes and dots at the end of a reversed path, but not its whole text. -/
def trimReversed : List Char → List Char
  | '/' :: char :: rest => trimReversed (char :: rest)
  | '.' :: '/' :: rest => if rest.isEmpty then ['/'] else trimReversed rest
  | path => path

/-- The path of the directory around what a path names, empty for a single name. -/
def parent? (path : String) : Option String :=
  match trimReversed path.toList.reverse with
  | [] => none
  | ['/'] => none
  | reversed =>
    match reversed.dropWhile (· != '/') with
    | [] => some ""
    | ['/'] => some "/"
    | _ :: around => some (String.ofList (trimReversed around).reverse)

/-- Whether a name ends in a dot and the extension of logs, with something before the dot. -/
def isLog (name : String) : Bool := ".jsonl".toList.isSuffixOf name.toList && name != ".jsonl"

end StateAudit.Files.Path
