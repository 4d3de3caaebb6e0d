import StateAudit.Files.Tree
import StateAudit.Load
import StateAudit.Vocabulary

/-! The vocabulary from a file. A missing or unreadable file gives an empty one, and a table
that breaks keeps the rows before the break; the problem goes with it. -/

namespace StateAudit.Vocabulary

def load (tree : Files.Tree) (path : String) : Loaded Vocabulary :=
  if !tree.isPresent path then { value := {}, problems := [.notFound path] }
  else match tree.openRead path with
    | .error fault => { value := {}, problems := [.io path fault] }
    | .ok handle =>
      let table := Csv.readTable handle.broken.isNone handle.content
      let error := (table.broken.map TableError.badField).or (handle.broken.map TableError.unreadable)
      { value := ofTable table, problems := (error.map (LoadError.table path)).toList }

end StateAudit.Vocabulary
