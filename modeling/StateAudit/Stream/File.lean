import StateAudit.Files.Tree
import StateAudit.Stream.Analysis
import StateAudit.Stream.Validation

/-! Audit logs in files. A log that cannot be opened adds a problem and nothing else. -/

namespace StateAudit.Stream

def chunksOf (handle : Files.Handle) : List Chunk :=
  .bytes handle.content :: (handle.broken.map Chunk.failure).toList

def openLog (tree : Files.Tree) (path : String) : Except LoadError (List Chunk) :=
  if !tree.isPresent path then .error (.notFound path)
  else match tree.openRead path with
    | .error fault => .error (.io path fault)
    | .ok handle => .ok (chunksOf handle)

def validateFile (tree : Files.Tree) (validator : Validator) (path : String) : Loaded Report :=
  match openLog tree path with
  | .error problem => { value := {}, problems := [problem] }
  | .ok chunks => validate validator path chunks

def analyzeFile (tree : Files.Tree) (aggregate : Aggregate) (path : String) : Loaded Aggregate :=
  match openLog tree path with
  | .error problem => { value := aggregate, problems := [problem] }
  | .ok chunks => analyze aggregate path chunks

/-- Folds logs in their order; the problems of one do not touch the others. -/
def analyzeFiles (tree : Files.Tree) (aggregate : Aggregate) : (paths : List String) → Loaded Aggregate
  | [] => { value := aggregate }
  | path :: rest =>
    let first := analyzeFile tree aggregate path
    let others := analyzeFiles tree first.value rest
    { value := others.value, problems := first.problems ++ others.problems }

end StateAudit.Stream
