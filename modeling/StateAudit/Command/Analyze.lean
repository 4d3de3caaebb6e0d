import StateAudit.Command.Outcome
import StateAudit.Files.Collect
import StateAudit.Stream.File
import StateAudit.Summary.Json
import StateAudit.Summary.Text

/-! The command that summarizes audit logs. It fails when its inputs hold no log at all, and crashes
when the place of its recent errors cannot be had. -/

namespace StateAudit.Command.Analyze

structure Arguments where
  inputs : List String
  delivery : Delivery
deriving DecidableEq

def options : Options := ("input", .paths) :: sharedOptions

def arguments? (given : Given) : Option Arguments :=
  if isGiven given "input" then some { inputs := valuesOf given "input", delivery := delivery given } else none

def render (summary : Summary) : Format → String
  | .text => summary.text
  | .json => jsonReport summary.toJson

def execute (machine : Machine) (tree : Files.Tree) (arguments : Arguments) : Outcome :=
  match settings tree arguments.delivery.config with
  | .error failure => fail tree [] failure
  | .ok config =>
    let logs := Files.collectLogs tree arguments.inputs
    if logs.isEmpty then { code := 1, notices := ["No audit log files found!"], tree }
    else match Aggregate.start machine config with
      | .error failure => crash tree failure
      | .ok aggregate =>
        let loaded := Stream.analyzeFiles tree aggregate logs
        let notices := loaded.problems.map (s!"Error loading audit log: {·.message}")
        deliverReport machine tree arguments.delivery.output (render loaded.value.summarize arguments.delivery.format)
          notices 0 []

def run (tree : Files.Tree) (arguments : List String) (machine : Machine := {}) : Outcome :=
  Command.run options arguments? (execute machine) tree arguments

end StateAudit.Command.Analyze
