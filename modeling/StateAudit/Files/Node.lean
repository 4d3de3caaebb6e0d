import StateAudit.Dictionary
import StateAudit.Files.Fault
import StateAudit.Text.Utf8

/-! What a file tree is made of. A regular file may refuse to be opened, and reading it may
break off; a socket is there but cannot be opened; a directory can be opened but not read.
The name of an entry is text: no entry has a name whose bytes are not valid UTF-8. -/

namespace StateAudit.Files

/-- An open file: the bytes that reading gives, and the fault that stops it short of an end. -/
structure Handle where
  content : Bytes
  broken : Option Fault := none
deriving DecidableEq

def Handle.read (handle : Handle) : Except Fault Bytes :=
  match handle.broken with
  | none => .ok handle.content
  | some fault => .error fault

inductive Node where
  | file (opened : Except Fault Handle)
  | socket
  | directory (entries : List (String × Node))

namespace Node

def ofBytes (content : Bytes) : Node := .file (.ok { content })

def isDirectory : Node → Bool
  | .directory _ => true
  | _ => false

/-- Every read of an open directory fails. -/
def openRead : Node → Except Fault Handle
  | .file opened => opened
  | .socket => .error .noDevice
  | .directory _ => .ok { content := [], broken := some .isADirectory }

def child? (node : Node) : List String → Option Node
  | [] => some node
  | name :: rest => match node with
    | .directory entries => (entries.lookup name).bind (child? · rest)
    | _ => none

def entriesOf : Node → Dictionary Node
  | .directory entries => entries
  | _ => []

/-- Puts a node at names that go down from a directory; what is missing on the way becomes a directory. -/
def put (top : Node) (names : List String) (node : Node) : Node :=
  match names with
  | [] => node
  | name :: rest =>
    let below := ((entriesOf top).lookup name).getD (.directory [])
    .directory (Dictionary.insert name (below.put rest node) (entriesOf top))

end Node

end StateAudit.Files
