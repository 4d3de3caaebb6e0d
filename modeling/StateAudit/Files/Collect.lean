import StateAudit.Files.Tree

/-! Inputs: a directory stands for the logs below it, anything else for itself. Within each
directory the logs come by name. A directory below an input is passed over when the path that
leads to it is too long to open it. -/

namespace StateAudit.Files

mutual
/-- The logs at or below a node. -/
def logsBelow (path name : String) : Node → List String
  | .file _ => if Path.isLog name then [path] else []
  | .socket => []
  | .directory entries => if pathLimit < path.utf8ByteSize then [] else (logsByName path entries).flatMap (·.2)
termination_by structural node => node

/-- The logs at or below each entry of a directory. -/
def logsByName (path : String) : List (String × Node) → Dictionary (List String)
  | [] => []
  | (name, node) :: rest => Dictionary.insert name (logsBelow (Path.join path name) name node) (logsByName path rest)
termination_by structural entries => entries
end

def expand (tree : Tree) (input : String) : List String :=
  match tree.find input with
  | .ok (.directory entries) => (logsByName input entries).flatMap (·.2)
  | _ => [input]

def collectLogs (tree : Tree) (inputs : List String) : List String := inputs.flatMap (expand tree)

end StateAudit.Files
