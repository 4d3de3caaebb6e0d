import StateAudit.Command.Arguments
import StateAudit.Config.Loading
import StateAudit.Delivery
import StateAudit.Json.Printer
import StateAudit.Machine

/-! What a command does: its exit code, what it writes on both outputs, and the file tree it
leaves behind. What the runtime says of a crash is left out. -/

namespace StateAudit.Command

structure Outcome where
  code : Nat
  output : String := ""
  notices : List String := []
  /-- The causes of the last notice, the nearest one first. -/
  causes : List String := []
  tree : Files.Tree

structure Delivery where
  output : Option String
  format : Format
  config : Option String
deriving DecidableEq

def sharedOptions : Options := [("output", .path), ("format", .format), ("config", .path), ("verbose", .flag)]

def value? (given : Given) (name : String) : Option String := (valuesOf given name).head?

/-- A report is text unless its format is given. -/
def delivery (given : Given) : Delivery :=
  { output := value? given "output"
    format := ((value? given "format").bind Format.parse?).getD .text
    config := value? given "config" }

/-- What keeps a command from its end: a file of settings that cannot be used, or its report. -/
inductive Failure where
  | settings (path : String) (error : ConfigError)
  | delivery (error : DeliveryError)
deriving DecidableEq

namespace Failure

def message : Failure → String
  | .settings path _ => s!"Failed to load config {path}"
  | .delivery error => error.message

def causes : Failure → List String
  | .settings _ error => error.causes
  | .delivery error => [error.fault.message]

end Failure

/-- Ends a command by a failure, after some notices. -/
def fail (tree : Files.Tree) (notices : List String) (failure : Failure) : Outcome :=
  { code := 1, notices := notices ++ [s!"Error: {failure.message}"], causes := failure.causes, tree }

/-- The lines that name causes under a notice, numbered where there are several. -/
def causeLines : List String → List String
  | [] => []
  | [cause] => ["", "Caused by:", s!"    {cause}"]
  | causes => ["", "Caused by:"] ++ causes.mapIdx fun index cause => s!"    {index}: {cause}"

/-- All that a command writes on the error output. -/
def Outcome.errorLines (outcome : Outcome) : List String := outcome.notices ++ causeLines outcome.causes

/-- The settings of a file, or the default ones. -/
def settings (tree : Files.Tree) : Option String → Except Failure Config
  | none => .ok {}
  | some path => match Config.load tree path with
    | .ok config => .ok config
    | .error error => .error (.settings path error)

/-- Delivers a report after some notices, and ends with a code and further notices. -/
def deliverReport (machine : Machine) (tree : Files.Tree) (target : Option String) (report : String)
    (notices : List String) (code : Nat) (closing : List String) : Outcome :=
  match target with
  | none => match machine.print report with
    | (output, .ok ()) => { code, output, notices := notices ++ closing, tree }
    | (output, .error fault) => { fail tree notices (.delivery (.output fault)) with output }
  | some path => match deliver tree path report with
    | (tree, .ok ()) => { code, notices := notices ++ closing, tree }
    | (tree, .error error) => fail tree notices (.delivery error)

def crash (tree : Files.Tree) (crash : Crash) : Outcome := { code := crash.code, tree }

def usage (tree : Files.Tree) (code : Nat) : Outcome := { code, tree }

/-- Runs a command as its command line asks. A malformed line, or a call for help, has no run. -/
def run (options : Options) (arguments? : Given → Option α) (execute : Files.Tree → α → Outcome) (tree : Files.Tree)
    (arguments : List String) : Outcome :=
  match scan options [] arguments.length arguments with
  | .help => usage tree 0
  | .misuse => usage tree 2
  | .run given => match arguments? given with
    | none => usage tree 2
    | some arguments => execute tree arguments

def jsonReport (value : Json) : String := value.pretty ++ "\n"

end StateAudit.Command
