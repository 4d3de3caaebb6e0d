import StateAudit.Config.Document
import StateAudit.Files.Tree

/-! Settings from a file. -/

namespace StateAudit.Config

def load (tree : Files.Tree) (path : String) : Except ConfigError Config :=
  match tree.readText path with
  | .error fault => .error (.io path fault)
  | .ok text => ofToml text

end StateAudit.Config
