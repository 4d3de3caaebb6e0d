import StateAudit.Summary.Basic
import StateAudit.Rate
import StateAudit.Decimal.Fixed
import StateAudit.Text.Column

/-! Summaries as text. -/

namespace StateAudit.Summary

open Text Decimal

def frequencyLine (total : Nat) (entry : String × Nat) : String :=
  "  " ++ alignLeft 24 entry.1 ++ alignRight 8 (toString entry.2) ++
    alignRight 8 (fixed 1 (percentage entry.2 total)) ++ "%"

def frequencyLines (title : String) (total : Nat) (entries : List (String × Nat)) : List String :=
  if entries.isEmpty then [] else "" :: s!"=== {title} ===" :: entries.map (frequencyLine total)

def performanceLine (label : String) (cells : List String) : String :=
  alignLeft 14 label ++ String.join (cells.map (alignRight 10))

def sampleCells (sample : SampleSummary) : List String := [fixed 2 sample.min, fixed 2 sample.avg, fixed 2 sample.max]

def performanceLines (performance : PerformanceSummary) : List String :=
  let duration := performance.durationMs
  ["", "=== Performance ===",
    performanceLine "Metric" ["Min", "Avg", "Max", "P95", "P99"],
    performanceLine "Duration (ms)" (sampleCells duration.toSampleSummary ++ [fixed 2 duration.p95, fixed 2 duration.p99]),
    performanceLine "CPU (%)" (sampleCells performance.cpuPercent ++ ["-", "-"]),
    performanceLine "Memory (MB)" (sampleCells performance.memoryMb ++ ["-", "-"])]

def countLine (entry : String × Nat) : String := "  " ++ alignRight 6 (toString entry.2) ++ "  " ++ entry.1

def recentLine (record : Record) : String :=
  s!"  [{record.status.text}] {record.primitiveLabel}/{record.contextLabel}: {record.errorLabel}"

def errorLines (analysis : ErrorAnalysis) : List String :=
  ["", "=== Errors ===", s!"Total errors: {analysis.total}"] ++ analysis.types.map countLine ++
    (if analysis.primitives.isEmpty then [] else "By primitive:" :: analysis.primitives.map countLine) ++
    (if analysis.recent.isEmpty then [] else "Recent:" :: analysis.recent.map recentLine)

def lines (summary : Summary) : List String :=
  ["=== Summary ===",
    s!"Total operations: {summary.total}",
    "Success rate: " ++ fixed 1 summary.successRate ++ "%",
    s!"Successful: {summary.successful}",
    s!"Warnings: {summary.warnings}",
    s!"Errors: {summary.errors}",
    s!"Critical: {summary.critical}"] ++
    (if summary.unknown = 0 then [] else [s!"Unknown status: {summary.unknown}"]) ++
    (if summary.malformed = 0 then [] else [s!"Malformed lines: {summary.malformed}"]) ++
    frequencyLines "Top primitives" summary.total summary.topPrimitives ++
    frequencyLines "Top contexts" summary.total summary.topContexts ++
    performanceLines summary.performance ++ errorLines summary.errorAnalysis

def text (summary : Summary) : String := unlines summary.lines

end StateAudit.Summary
