import StateAudit.Csv.Table
import StateAudit.Files.Fault

/-! Loading: a value together with the problems met on the way to it, in order. -/

namespace StateAudit

/-- What breaks a table: a field, or the reading of its file. -/
inductive TableError where
  | badField (bad : Csv.BadField)
  | unreadable (fault : Files.Fault)
deriving DecidableEq

def TableError.message : TableError → String
  | .badField bad => bad.message
  | .unreadable fault => fault.message

inductive LoadError where
  | notFound (path : String)
  | io (path : String) (fault : Files.Fault)
  | table (path : String) (error : TableError)
  | interrupted (source : String) (line : Nat) (fault : Files.Fault)
deriving DecidableEq

def LoadError.message : LoadError → String
  | .notFound path => s!"source not found: {path}"
  | .io path fault => s!"cannot read {path}: {fault.message}"
  | .table path error => s!"malformed state matrix {path}: {error.message}"
  | .interrupted source line fault => s!"read failed after line {line} of {source}: {fault.message}"

structure Loaded (α : Type) where
  value : α
  problems : List LoadError := []

def Loaded.isClean (loaded : Loaded α) : Bool := loaded.problems.isEmpty

end StateAudit
