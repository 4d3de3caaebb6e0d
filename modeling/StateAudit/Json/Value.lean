import StateAudit.Binary64.Basic
import StateAudit.Dictionary

/-! JSON values. A number is whole or a double; an object is the list of its members in the
order in which they are written. -/

namespace StateAudit

inductive Number where
  | whole (value : Int)
  | double (value : Binary64)
deriving DecidableEq

def Number.toBinary64 : Number → Binary64
  | .whole value => Binary64.ofInt value
  | .double value => value

inductive Json where
  | null
  | bool (value : Bool)
  | number (value : Number)
  | string (value : String)
  | array (items : List Json)
  | object (members : List (String × Json))

namespace Json

abbrev Members := Dictionary Json

def nat (value : Nat) : Json := .number (.whole value)

def double (value : Binary64) : Json := .number (.double value)

def kind : Json → String
  | .null => "null"
  | .bool _ => "boolean"
  | .number _ => "number"
  | .string _ => "string"
  | .array _ => "array"
  | .object _ => "object"

def number? : Json → Option Binary64
  | .number value => some value.toBinary64
  | _ => none

end Json

end StateAudit
