import StateAudit.Rate
import StateAudit.Tracker

/-! The report on one stream: how many entries it has, and every finding with its line. -/

namespace StateAudit

/-- A finding at its place; a line that did not parse has no object to show. -/
structure Diagnostic where
  line : Nat
  reason : Finding
  offending : Option Json

structure Report where
  total : Nat := 0
  valid : Nat := 0
  invalid : Nat := 0
  errors : Array Diagnostic := #[]
  warnings : Array Diagnostic := #[]

namespace Report

def push (report : Report) (line : Nat) (record : Record) (verdict : Verdict) : Report :=
  let diagnose (finding : Finding) : Diagnostic := { line, reason := finding, offending := some record.raw }
  let warnings := report.warnings ++ verdict.warnings.map diagnose
  match verdict.fatal with
  | none => { report with total := report.total + 1, valid := report.valid + 1, warnings }
  | some finding =>
    { report with
      total := report.total + 1, invalid := report.invalid + 1, warnings
      errors := report.errors.push (diagnose finding) }

def pushMalformed (report : Report) (line : Nat) (error : RecordError) : Report :=
  { report with
    total := report.total + 1, invalid := report.invalid + 1
    errors := report.errors.push { line, reason := .malformed error, offending := none } }

def successRate (report : Report) : Binary64 := percentage report.valid report.total

def passed (report : Report) : Bool := report.invalid == 0

end Report

end StateAudit
