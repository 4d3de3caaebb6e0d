import StateAudit.Json.Parser
import StateAudit.Json.Printer
import StateAudit.Status

/-! Audit records: one logged operation, a JSON object. Every field may be missing. Only
`primitive` and `context` are held to a type; another field of the wrong type reads as
absent, except that identifiers and messages keep their JSON text. -/

namespace StateAudit

structure Performance where
  durationMs : Option Binary64 := none
  cpuUsage : Option Binary64 := none
  memoryMb : Option Binary64 := none
deriving DecidableEq

structure Record where
  primitive : Option String
  context : Option String
  stateId : Option String
  status : Status
  message : Option String
  performance : Performance
  members : Json.Members

inductive RecordError where
  | encoding
  | json (error : Json.Error)
  | notAnObject (kind : String)
  | fieldType (field : String)
deriving DecidableEq

def RecordError.message : RecordError → String
  | .encoding => "line is not valid UTF-8"
  | .json error => s!"JSON parse error: {error.message}"
  | .notAnObject kind => s!"expected a JSON object, found {kind}"
  | .fieldType field => s!"field `{field}` has the wrong type: expected string"

namespace Record

def stringField (members : Json.Members) (key : String) : Except RecordError (Option String) :=
  match members.get? key with
  | none => .ok none
  | some .null => .ok none
  | some (.string text) => .ok (some text)
  | some _ => .error (.fieldType key)

def textField (members : Json.Members) (key : String) : Option String :=
  match members.get? key with
  | none => none
  | some .null => none
  | some (.string text) => some text
  | some value => some value.compact

def numberField (members : Json.Members) (key : String) : Option Binary64 :=
  (members.get? key).bind Json.number?

/-- Status and message of the nested layout, which has a `result` object. -/
def nestedOutcome (result : Json.Members) : Status × Option String :=
  let status := match Dictionary.get? result "status" with
    | some (.string text) => Status.parse text
    | _ => .unknown
  (status, textField result "message")

/-- Status and message of the flat layout. -/
def flatOutcome (members : Json.Members) : Status × Option String :=
  let status := match members.get? "success" with
    | some (.bool true) => Status.success
    | some (.bool false) => Status.error
    | _ => .unknown
  (status, textField members "error_msg")

def outcome (members : Json.Members) : Status × Option String :=
  match members.get? "result" with
  | some (.object result) => nestedOutcome result
  | _ => flatOutcome members

/-- The measurements of the `performance` object; a top-level duration stands in for a missing one. -/
def measurements (members : Json.Members) : Performance :=
  let measured : Performance := match members.get? "performance" with
    | some (.object taken) =>
      { durationMs := numberField taken "duration_ms"
        cpuUsage := numberField taken "cpu_usage"
        memoryMb := numberField taken "memory_mb" }
    | _ => {}
  { measured with durationMs := measured.durationMs.or (numberField members "duration_ms") }

def ofMembers (members : Json.Members) : Except RecordError Record :=
  match stringField members "primitive" with
  | .error error => .error error
  | .ok primitive => match stringField members "context" with
    | .error error => .error error
    | .ok context =>
      let (status, message) := outcome members
      .ok { primitive, context, stateId := textField members "state_id", status, message
            performance := measurements members, members }

def ofJson : Json → Except RecordError Record
  | .object members => ofMembers members
  | value => .error (.notAnObject value.kind)

def parse (line : List Char) : Except RecordError Record :=
  match Json.parse line with
  | .ok value => ofJson value
  | .error error => .error (.json error)

def raw (record : Record) : Json := .object record.members

end Record

end StateAudit
