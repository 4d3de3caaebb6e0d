import StateAudit.Command.Analyze
import StateAudit.Command.Validate

/-! The program. Its first argument names a command. What the paths among the other arguments
lead to is read before the command runs, and the report that it leaves is written after it. -/

namespace StateAudit.Main

open Files

structure Program where
  options : Command.Options
  run : Tree → List String → Command.Outcome

def program? : String → Option Program
  | "validate" => some ⟨Command.Validate.options, (Command.Validate.run · ·)⟩
  | "analyze" => some ⟨Command.Analyze.options, (Command.Analyze.run · ·)⟩
  | _ => none

def faultOf : IO.Error → Fault
  | .noFileOrDirectory _ _ _ => .notFound
  | .permissionDenied _ code details => .other s!"{details} (os error {code})"
  | .noSuchThing _ code details => .other s!"{details} (os error {code})"
  | error => .other (toString error)

def entryAt (names : List String) : IO.FS.DirEntry :=
  { root := "/" ++ "/".intercalate names.dropLast, fileName := names.getLast?.getD "." }

def kindAt? (names : List String) : IO (Option IO.FS.FileType) := do
  try return some (← (entryAt names).path.metadata).type
  catch _ => return none

def readFile (entry : IO.FS.DirEntry) : IO Node := do
  try return .ofBytes (← IO.FS.readBinFile entry.path).toList
  catch error => return .file (.error (faultOf error))

/-- Copies a directory and all that lies below it. Links are passed over. -/
partial def copyDirectory (entry : IO.FS.DirEntry) : IO Node := do
  let found ← try entry.path.readDir catch _ => pure #[]
  let entries ← found.toList.filterMapM fun below => do
    match (← below.path.symlinkMetadata).type with
    | .dir => return some (below.fileName, ← copyDirectory below)
    | .file => return some (below.fileName, ← readFile below)
    | .symlink => return none
    | .other => return some (below.fileName, .socket)
  return .directory (Dictionary.ofList entries)

/-- Adds what names lead through, without the content of files, and gives the names of the
last one in reverse. -/
def passThrough (tree : Tree) (trail : List String) : List String → IO (Tree × List String)
  | [] => return (tree, trail)
  | "." :: rest => passThrough tree trail rest
  | ".." :: rest => passThrough tree trail.tail rest
  | name :: rest => do
    let names := (name :: trail).reverse
    let tree ← match tree.top.child? names, ← kindAt? names with
      | none, some .dir => pure (tree.put names (.directory []))
      | none, some _ => pure (tree.put names (.ofBytes []))
      | _, _ => pure tree
    passThrough tree (name :: trail) rest

def passPath (tree : Tree) (path : String) : IO (Tree × List String) :=
  passThrough tree (tree.start path).reverse (Path.names path)

def capture (tree : Tree) (path : String) : IO Tree := do
  let (tree, trail) ← passPath tree path
  let names := trail.reverse
  match ← kindAt? names with
  | none => return tree
  | some .dir => return tree.put names (← copyDirectory (entryAt names))
  | some _ => return tree.put names (← readFile (entryAt names))

def start : IO Tree := do
  let names := Path.names (← IO.currentDir).toString
  return (← passThrough { top := .directory [], workingAt := names } [] names).1

def survey (given : Command.Given) : IO Tree := do
  let tree ← (Command.valuesOf given "output").foldlM (fun tree path => return (← passPath tree path).1) (← start)
  let inputs := (given.filter fun use => use.1 != "output" && use.1 != "format").flatMap (·.2)
  inputs.foldlM capture tree

def isChanged (before after : Tree) (path : String) : Bool :=
  match before.readBytes path, after.readBytes path with
  | .ok held, .ok content => held != content
  | .error _, .ok _ => true
  | _, .error _ => false

/-- Brings to the disk what a command changed at a path. -/
def save (before after : Tree) (path : String) : IO Unit := do
  let around := (Path.parent? path).getD ""
  if after.isDirectory around && !before.isDirectory around then IO.FS.createDirAll around
  if isChanged before after path then
    IO.FS.writeBinFile path ⟨((after.readBytes path).toOption.getD []).toArray⟩

def execute (program : Program) (arguments : List String) : IO UInt32 := do
  let given := match Command.scan program.options [] arguments.length arguments with
    | .run given => given
    | _ => []
  let tree ← survey given
  let outcome := program.run tree arguments
  outcome.errorLines.forM IO.eprintln
  IO.print outcome.output
  for path in Command.valuesOf given "output" do
    try save tree outcome.tree path
    catch error =>
      let failed := Command.fail tree [] (.delivery (.report path (faultOf error)))
      failed.errorLines.forM IO.eprintln
      return failed.code.toUInt32
  return outcome.code.toUInt32

def run : List String → IO UInt32
  | [] => do
    IO.eprintln "usage: state-audit (validate | analyze) OPTIONS"
    return 2
  | name :: rest => match program? name with
    | some program => execute program rest
    | none => do
      IO.eprintln s!"unknown command {name}"
      return 2

end StateAudit.Main

def main (arguments : List String) : IO UInt32 := StateAudit.Main.run arguments
