import StateAudit.Summary.Basic

/-! Summaries as JSON. -/

namespace StateAudit.Summary

def frequencies (entries : List (String × Nat)) : Json :=
  .array (entries.map fun (value, count) => .object [("value", .string value), ("count", .nat count)])

def sampleMembers (sample : SampleSummary) : List (String × Json) :=
  [("count", .nat sample.count), ("min", .double sample.min), ("max", .double sample.max), ("avg", .double sample.avg)]

def performanceJson (performance : PerformanceSummary) : Json :=
  .object [
    ("duration_ms", .object (sampleMembers performance.durationMs.toSampleSummary ++
      [("p95", .double performance.durationMs.p95), ("p99", .double performance.durationMs.p99)])),
    ("cpu_percent", .object (sampleMembers performance.cpuPercent)),
    ("memory_mb", .object (sampleMembers performance.memoryMb))]

def errorsJson (analysis : ErrorAnalysis) : Json :=
  .object [("total_errors", .nat analysis.total), ("error_types", frequencies analysis.types),
    ("error_primitives", frequencies analysis.primitives),
    ("recent_errors", .array (analysis.recent.map Record.raw))]

def toJson (summary : Summary) : Json :=
  .object [("total_operations", .nat summary.total), ("successful", .nat summary.successful),
    ("warnings", .nat summary.warnings), ("errors", .nat summary.errors), ("critical", .nat summary.critical),
    ("unknown", .nat summary.unknown), ("malformed_lines", .nat summary.malformed),
    ("success_rate", .double summary.successRate),
    ("top_primitives", frequencies summary.topPrimitives), ("top_contexts", frequencies summary.topContexts),
    ("performance", performanceJson summary.performance), ("error_analysis", errorsJson summary.errorAnalysis)]

end StateAudit.Summary
