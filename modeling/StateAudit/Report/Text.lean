import StateAudit.Report.Basic
import StateAudit.Decimal.Fixed
import StateAudit.Text.Column

/-! Reports as text. Each list shows as many findings as the limit allows and counts the rest. -/

namespace StateAudit.Report

def rule : String := String.ofList (List.replicate 80 '=')

def diagnosticLine (index : Nat) (diagnostic : Diagnostic) : String :=
  s!"  {index + 1}. Line {diagnostic.line}: {diagnostic.reason.text}"

def listing (title noun : String) (diagnostics : List Diagnostic) (limit : Nat) : List String :=
  if diagnostics.isEmpty then []
  else
    s!"{title} ({diagnostics.length}):" :: (diagnostics.take limit).mapIdx diagnosticLine ++
      (if limit < diagnostics.length then [s!"  ... and {diagnostics.length - limit} more {noun}"] else []) ++ [""]

def lines (report : Report) (limit : Nat) : List String :=
  [rule, "State Validation Report", rule, "", "Summary:",
    s!"  Total Entries: {report.total}",
    s!"  Valid Entries: {report.valid}",
    s!"  Invalid Entries: {report.invalid}"] ++
    (if report.total = 0 then [] else ["  Success Rate: " ++ Decimal.fixed 2 report.successRate ++ "%"]) ++ [""] ++
    listing "Errors" "errors" report.errors.toList limit ++
    listing "Warnings" "warnings" report.warnings.toList limit ++ [rule]

def text (report : Report) (limit : Nat) : String := Text.unlines (report.lines limit)

end StateAudit.Report
