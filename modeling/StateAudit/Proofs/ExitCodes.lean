import StateAudit.Command.Analyze
import StateAudit.Command.Validate
import StateAudit.Proofs.LogFolding
import StateAudit.Proofs.MatrixLoading
import StateAudit.Proofs.ReportPlaces

/-! Exit codes, and what a command leaves behind. Both commands deliver their report wherever the
settings can be used, and only then does the report decide the code. Settings may ask for more recent
errors than there can be a place for; the summary of any log crashes on them. -/

namespace StateAudit

namespace Config
variable {config : Config}

structure InRange (config : Config) : Prop where
  topK : 0 < config.topK
  recentErrors : 0 < config.recentErrors
  displayLimit : 0 < config.displayLimit

end Config

theorem Crash.code_ne_zero (crash : Crash) : crash.code ≠ 0 := by
  cases crash <;> decide

namespace Machine

end Machine

namespace Command
variable {machine : Machine} {tree : Files.Tree} {target : Option String} {config : Config}

/-- The settings that a command runs with: the default ones where no file is given, or those of a
TOML file in which every entry fits. -/
inductive Configured (tree : Files.Tree) : Option String → Config → Prop
  | unset : Configured tree none {}
  | file {path : String} {text : List Char} {entries : Toml.Entries} {config : Config} :
      tree.readText path = .ok text → Toml.parse? text = some entries → Config.ofEntries {} entries = .ok config →
      config.InRange → Configured tree (some path) config

/-- Whether a report can be delivered: on the standard output, or at the path that is given for it. -/
def Deliverable (machine : Machine) (tree : Files.Tree) (target : Option String) (report : String) : Prop :=
  match target with
  | none => (machine.print report).2 = .ok ()
  | some path => (deliver tree path report).2 = .ok ()

/-- Where a report is after a command: on its output, or in the file at the path that it was given. The
output shows no more than the report even where it does not take the whole of it. -/
structure Delivered (machine : Machine) (tree : Files.Tree) (target : Option String) (report : String)
    (outcome : Outcome) : Prop where
  printed : target = none → outcome.tree = tree ∧ outcome.output.toList <+: report.toList ∧
    (Deliverable machine tree target report → outcome.output = report)
  written : ∀ path, target = some path → outcome.output = "" ∧ outcome.tree = (deliver tree path report).1 ∧
    (Deliverable machine tree target report → outcome.tree.readBytes path = .ok (Utf8.encode report.toList))

section Report
variable (report : String) (notices : List String) (code : Nat) (closing : List String)

end Report

/-- The promise of a command that comes as far as its report under a condition on its settings, and
succeeds by what the report says. -/
structure Contract (machine : Machine) (tree : Files.Tree) (delivery : Delivery) (reaches : Config → Prop)
    (report : Config → String) (passes : Config → Prop) (outcome : Outcome) : Prop where
  success : outcome.code = 0 ↔ ∃ config, Configured tree delivery.config config ∧ reaches config ∧
    Deliverable machine tree delivery.output (report config) ∧ passes config
  /-- On the standard output, its room decides whether a report can be delivered. -/
  room : delivery.output = none → ∀ report, (Deliverable machine tree delivery.output report ↔
    ∀ room, machine.output = some room → report.length ≤ room.size)
  /-- Of a path of plain names, what is in its place or on the way decides, where every write is taken. -/
  place : ∀ target around names name, tree.TakesAll → delivery.output = some target →
    tree.Locates target around names name → ∀ report,
      (Deliverable machine tree delivery.output report ↔ around.Admits names name)
  /-- A command that comes to no report does nothing. -/
  stopped : (∀ config, Configured tree delivery.config config → ¬ reaches config) →
    outcome.output = "" ∧ outcome.tree = tree
  /-- The report is delivered whether or not the command succeeds by it. -/
  delivered : ∀ config, Configured tree delivery.config config → reaches config →
    Delivered machine tree delivery.output (report config) outcome

section Contract
variable {delivery : Delivery} {reaches passes : Config → Prop} {report : Config → String} {outcome : Outcome}

end Contract

end Command

namespace Stream

/-- Whether reading a log gives an entry before it fails. -/
def Yields (tree : Files.Tree) (path : String) : Prop :=
  ∃ handle, tree.openRead path = .ok handle ∧ readings (entries (chunksOf handle)) ≠ []

end Stream

namespace Command.Validate

/-- The report that the settings lead to. -/
def reportUnder (tree : Files.Tree) (arguments : Arguments) (config : Config) : Report :=
  (Stream.validateFile tree (.ofConfig (Vocabulary.load tree arguments.matrix).value config) arguments.log).value

def rendering (tree : Files.Tree) (arguments : Arguments) (config : Config) : String :=
  render (reportUnder tree arguments config) config arguments.delivery.format

/-- The command succeeds if its report has no invalid entry. -/
structure Keeps (machine : Machine) (tree : Files.Tree) (arguments : Arguments) (outcome : Outcome) : Prop extends
    Contract machine tree arguments.delivery (fun _ => True) (rendering tree arguments)
      (fun config => (reportUnder tree arguments config).invalid = 0) outcome where
  code : outcome.code = 0 ∨ outcome.code = 1
  /-- Under a matrix that cannot be opened no entry is valid. -/
  unopened : ∀ config, Configured tree arguments.delivery.config config →
    (∃ fault, tree.openRead arguments.matrix = .error fault) →
    (outcome.code = 1 ↔ Stream.Yields tree arguments.log ∨
      ¬ Deliverable machine tree arguments.delivery.output (rendering tree arguments config))

end Command.Validate

namespace Command.Analyze
variable {machine : Machine} {tree : Files.Tree} {arguments : Arguments}

/-- The summary that the settings lead to. -/
def summaryUnder (tree : Files.Tree) (arguments : Arguments) (config : Config) : Summary :=
  (Stream.analyzeFiles tree (.ofConfig config) (Files.collectLogs tree arguments.inputs)).value.summarize

def rendering (tree : Files.Tree) (arguments : Arguments) (config : Config) : String :=
  render (summaryUnder tree arguments config) arguments.delivery.format

/-- There is a log, and the place of the recent errors can be had. -/
def Reaches (machine : Machine) (tree : Files.Tree) (arguments : Arguments) (config : Config) : Prop :=
  Files.collectLogs tree arguments.inputs ≠ [] ∧ machine.reserve config.recentErrors = .ok ()

/-- There is a log, but not the place of the recent errors. -/
def Crashes (machine : Machine) (tree : Files.Tree) (arguments : Arguments) (crash : Crash) : Prop :=
  Files.collectLogs tree arguments.inputs ≠ [] ∧
    ∃ config, Configured tree arguments.delivery.config config ∧ machine.reserve config.recentErrors = .error crash

/-- The command succeeds if there is any log, whether or not it can be read, unless it crashes. -/
structure Keeps (machine : Machine) (tree : Files.Tree) (arguments : Arguments) (outcome : Outcome) : Prop extends
    Contract machine tree arguments.delivery (Reaches machine tree arguments) (rendering tree arguments)
      (fun _ => True) outcome where
  code : (∀ crash, ¬ Crashes machine tree arguments crash) → outcome.code = 0 ∨ outcome.code = 1
  /-- A crash comes before anything is delivered, and has a code of its own. -/
  crashed : ∀ crash, Crashes machine tree arguments crash → outcome = { code := crash.code, tree }
  /-- Nothing that a log holds, or fails to give, has a part in the code. -/
  unread : ∀ other : Files.Tree,
    (∀ config, Configured other arguments.delivery.config config ↔ Configured tree arguments.delivery.config config) →
    Files.collectLogs other arguments.inputs = Files.collectLogs tree arguments.inputs →
    (∀ config, Configured tree arguments.delivery.config config →
      (Deliverable machine other arguments.delivery.output (rendering other arguments config) ↔
        Deliverable machine tree arguments.delivery.output (rendering tree arguments config))) →
    (execute machine other arguments).code = outcome.code

end Command.Analyze

namespace Command

end Command

end StateAudit
