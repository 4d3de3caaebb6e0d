import StateAudit.Files.Tree

/-! Changes to the file tree: new directories, and files with new content. -/

namespace StateAudit.Files.Tree

def put (tree : Tree) (names : List String) (node : Node) : Tree := { tree with top := tree.top.put names node }

/-- The directory that is to hold what a path names, and its name there. -/
def place (tree : Tree) (path : String) : Except Fault (List String × String) :=
  match checkPath path with
  | .error fault => .error fault
  | .ok () =>
    let names := Path.names path
    match walk tree.top [] (tree.start path ++ names.dropLast), names.getLast? with
    | .error fault, _ => .error fault
    | .ok _, none => .error .alreadyThere
    | .ok trail, some name =>
      match trail.last tree.top with
      | .directory _ =>
        if name = "." ∨ name = ".." then .error .alreadyThere
        else if nameLimit < name.utf8ByteSize then .error .nameTooLong
        else .ok (trail.names, name)
      | _ => .error .notADirectory

def makeDirectory (tree : Tree) (path : String) : Except Fault Tree :=
  match tree.place path with
  | .error fault => .error fault
  | .ok (names, name) =>
    if (tree.top.child? (names ++ [name])).isSome then .error .alreadyThere
    else match tree.writing (names ++ [name]) with
      | .refused fault => .error fault
      | _ => .ok (tree.put (names ++ [name]) (.directory []))

/-- A fault is none where the directory is there after all. -/
def unlessDirectory (tree : Tree) (path : String) (fault : Fault) : Except Fault Unit :=
  if tree.isDirectory path then .ok () else .error fault

/-- Makes a directory and those around it that are missing. What was made stays, also when
the rest fails. -/
def makeDirectories (tree : Tree) : (fuel : Nat) → String → Tree × Except Fault Unit
  | 0, _ => (tree, .error (.other "failed to create whole tree"))
  | fuel + 1, path =>
    if path.isEmpty then (tree, .ok ())
    else match tree.makeDirectory path with
      | .ok tree => (tree, .ok ())
      | .error .notFound =>
        match Path.parent? path with
        | none => (tree, .error (.other "failed to create whole tree"))
        | some around => match makeDirectories tree fuel around with
          | (tree, .error fault) => (tree, .error fault)
          | (tree, .ok ()) => match tree.makeDirectory path with
            | .ok tree => (tree, .ok ())
            | .error fault => (tree, tree.unlessDirectory path fault)
      | .error fault => (tree, tree.unlessDirectory path fault)

/-- Gives a file new content, or makes it. A file that cannot be opened cannot be changed; one that
takes only a part of the content is left with that part. -/
def write (tree : Tree) (path : String) (content : Bytes) : Tree × Except Fault Unit :=
  match tree.place path with
  | .error .alreadyThere => (tree, .error .isADirectory)
  | .error fault => (tree, .error fault)
  | .ok (names, name) =>
    if Path.endsInSlash path then (tree, .error .isADirectory)
    else match tree.top.child? (names ++ [name]) with
      | some (.directory _) => (tree, .error .isADirectory)
      | some .socket => (tree, .error .noDevice)
      | some (.file (.error fault)) => (tree, .error fault)
      | _ => match tree.writing (names ++ [name]) with
        | .free => (tree.put (names ++ [name]) (.ofBytes content), .ok ())
        | .refused fault => (tree, .error fault)
        | .limited room =>
          (tree.put (names ++ [name]) (.ofBytes (content.take room.size)),
            if content.length ≤ room.size then .ok () else .error room.fault)

end StateAudit.Files.Tree
