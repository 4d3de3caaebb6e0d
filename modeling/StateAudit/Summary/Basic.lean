import StateAudit.Frequency
import StateAudit.Record
import StateAudit.Statistics

/-! The summary of one or more streams. -/

namespace StateAudit

structure PerformanceSummary where
  durationMs : LatencySummary
  cpuPercent : SampleSummary
  memoryMb : SampleSummary
deriving DecidableEq

structure ErrorAnalysis where
  total : Nat
  types : List (String × Nat)
  primitives : List (String × Nat)
  recent : List Record

structure Summary where
  total : Nat
  successful : Nat
  warnings : Nat
  errors : Nat
  critical : Nat
  unknown : Nat
  /-- Lines that are no records; the total leaves them out. -/
  malformed : Nat
  successRate : Binary64
  topPrimitives : List (String × Nat)
  topContexts : List (String × Nat)
  performance : PerformanceSummary
  errorAnalysis : ErrorAnalysis

def unknownLabel : String := "unknown"

def unknownError : String := "Unknown error"

namespace Record

def primitiveLabel (record : Record) : String := record.primitive.getD unknownLabel

def contextLabel (record : Record) : String := record.context.getD unknownLabel

def errorLabel (record : Record) : String := record.message.getD unknownError

end Record

end StateAudit
