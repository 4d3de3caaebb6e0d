import StateAudit.Files.Node
import StateAudit.Files.Path

/-! The file tree as paths see it. A path that begins with a slash leads from the top, any
other path from the working directory. -/

namespace StateAudit.Files

structure Tree where
  top : Node
  /-- The names that lead from the top to the working directory. -/
  workingAt : List String := []
  /-- What becomes of writes at the place that names lead to from the top. -/
  writing : List String → Writing := fun _ => .free

def nameLimit : Nat := 255

def pathLimit : Nat := 4095

/-- The nodes that lead down from the top, the last one first, with the names they have there. -/
abbrev Trail := List (String × Node)

namespace Trail

def names (trail : Trail) : List String := (trail.map (·.1)).reverse

def last (trail : Trail) (top : Node) : Node := (trail.head?.map (·.2)).getD top

end Trail

namespace Tree

/-- Follows names from the end of a trail to where they lead. The top lies above itself. -/
def walk (top : Node) (trail : Trail) : List String → Except Fault Trail
  | [] => .ok trail
  | name :: rest =>
    match trail.last top with
    | .directory entries =>
      if name = "." then walk top trail rest
      else if name = ".." then walk top trail.tail rest
      else if nameLimit < name.utf8ByteSize then .error .nameTooLong
      else match entries.lookup name with
        | some node => walk top ((name, node) :: trail) rest
        | none => .error .notFound
    | _ => .error .notADirectory

def checkPath (path : String) : Except Fault Unit :=
  if path.toList.contains '\x00' then .error .badName
  else if path.isEmpty then .error .notFound
  else if pathLimit < path.utf8ByteSize then .error .nameTooLong
  else .ok ()

def start (tree : Tree) (path : String) : List String :=
  if Path.isAbsolute path then [] else tree.workingAt

def resolve (tree : Tree) (path : String) : Except Fault Trail :=
  match checkPath path with
  | .error fault => .error fault
  | .ok () => walk tree.top [] (tree.start path ++ Path.names path)

/-- What a path names. A slash at its end asks for a directory. -/
def find (tree : Tree) (path : String) : Except Fault Node :=
  match tree.resolve path with
  | .error fault => .error fault
  | .ok trail =>
    let node := trail.last tree.top
    if Path.endsInSlash path && !node.isDirectory then .error .notADirectory else .ok node

def isPresent (tree : Tree) (path : String) : Bool := (tree.find path).isOk

def isDirectory (tree : Tree) (path : String) : Bool :=
  match tree.find path with
  | .ok node => node.isDirectory
  | .error _ => false

def openRead (tree : Tree) (path : String) : Except Fault Handle :=
  match tree.find path with
  | .error fault => .error fault
  | .ok node => node.openRead

def readBytes (tree : Tree) (path : String) : Except Fault Bytes :=
  match tree.openRead path with
  | .error fault => .error fault
  | .ok handle => handle.read

def readText (tree : Tree) (path : String) : Except Fault (List Char) :=
  match tree.readBytes path with
  | .error fault => .error fault
  | .ok content => match Utf8.decode content with
    | .ok text => .ok text
    | .error _ => .error .notText

end Tree

end StateAudit.Files
