/-! The outcome of an audited operation. -/

namespace StateAudit

inductive Status where
  | success
  | warn
  | error
  | critical
  | unknown
deriving DecidableEq

namespace Status

def parse : String → Status
  | "SUCCESS" => .success
  | "WARN" => .warn
  | "ERROR" => .error
  | "CRITICAL" => .critical
  | _ => .unknown

def text : Status → String
  | .success => "SUCCESS"
  | .warn => "WARN"
  | .error => "ERROR"
  | .critical => "CRITICAL"
  | .unknown => "UNKNOWN"

/-- The outcomes that error analysis counts. -/
def isError : Status → Bool
  | .error => true
  | .critical => true
  | _ => false

end Status

end StateAudit
