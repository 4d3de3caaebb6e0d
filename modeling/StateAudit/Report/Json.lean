import StateAudit.Report.Basic

/-! Reports as JSON. -/

namespace StateAudit

def Diagnostic.toJson (diagnostic : Diagnostic) : Json :=
  .object [("line_number", .nat diagnostic.line), ("reason", diagnostic.reason.toJson),
    ("offending_record", diagnostic.offending.getD .null)]

def Report.toJson (report : Report) : Json :=
  .object [("total_entries", .nat report.total), ("valid_entries", .nat report.valid),
    ("invalid_entries", .nat report.invalid),
    ("errors", .array (report.errors.toList.map Diagnostic.toJson)),
    ("warnings", .array (report.warnings.toList.map Diagnostic.toJson))]

end StateAudit
