import StateAudit.Files.Writing

/-! Delivery of a report to a file, whose directory is made where it is missing. -/

namespace StateAudit

/-- Where a report cannot be delivered, and the fault that is in the way. -/
inductive DeliveryError where
  | output (fault : Files.Fault)
  | directory (path : String) (fault : Files.Fault)
  | report (path : String) (fault : Files.Fault)
deriving DecidableEq

namespace DeliveryError

def message : DeliveryError → String
  | .output _ => "Failed to write report to stdout"
  | .directory path _ => s!"Failed to create report directory {path}"
  | .report path _ => s!"Failed to write report {path}"

def fault : DeliveryError → Files.Fault
  | .output fault => fault
  | .directory _ fault => fault
  | .report _ fault => fault

end DeliveryError

def deliver (tree : Files.Tree) (path report : String) : Files.Tree × Except DeliveryError Unit :=
  let around := (Files.Path.parent? path).getD ""
  match tree.makeDirectories (around.length + 1) around with
  | (tree, .error fault) => (tree, .error (.directory around fault))
  | (tree, .ok ()) => match tree.write path (Utf8.encode report.toList) with
    | (tree, .error fault) => (tree, .error (.report path fault))
    | (tree, .ok ()) => (tree, .ok ())

end StateAudit
