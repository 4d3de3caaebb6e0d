import StateAudit.Command.Outcome
import StateAudit.Report.Json
import StateAudit.Report.Text
import StateAudit.Stream.File
import StateAudit.Vocabulary.Loading

/-! The command that validates one audit log against a state matrix. It fails when an entry is
invalid, but delivers its report first. -/

namespace StateAudit.Command.Validate

structure Arguments where
  matrix : String
  log : String
  delivery : Delivery
deriving DecidableEq

def options : Options := [("matrix", .path), ("audit-log", .path)] ++ sharedOptions

def arguments? (given : Given) : Option Arguments := do
  let matrix ← value? given "matrix"
  let log ← value? given "audit-log"
  return { matrix, log, delivery := delivery given }

def render (report : Report) (config : Config) : Format → String
  | .text => report.text config.displayLimit
  | .json => jsonReport report.toJson

def closing (report : Report) : List String :=
  if report.passed then []
  else [s!"Validation FAILED: {report.invalid} invalid " ++ (if report.invalid = 1 then "entry." else "entries.")]

def execute (machine : Machine) (tree : Files.Tree) (arguments : Arguments) : Outcome :=
  match settings tree arguments.delivery.config with
  | .error failure => fail tree [] failure
  | .ok config =>
    let vocabulary := Vocabulary.load tree arguments.matrix
    let loaded := Stream.validateFile tree (Validator.ofConfig vocabulary.value config) arguments.log
    let notices := vocabulary.problems.map (s!"Error loading state matrix: {·.message}") ++
      loaded.problems.map (s!"Error reading audit log: {·.message}")
    let report := loaded.value
    deliverReport machine tree arguments.delivery.output (render report config arguments.delivery.format) notices
      (if report.passed then 0 else 1) (closing report)

def run (tree : Files.Tree) (arguments : List String) (machine : Machine := {}) : Outcome :=
  Command.run options arguments? (execute machine) tree arguments

end StateAudit.Command.Validate
