import StateAudit.Config
import StateAudit.Machine
import StateAudit.Rate
import StateAudit.Summary.Basic
import StateAudit.Window

/-! The running aggregate over audit records. Every record counts, valid or not; a
measurement that is missing adds nothing to its sample. -/

namespace StateAudit

structure StatusCounts where
  success : Nat := 0
  warn : Nat := 0
  error : Nat := 0
  critical : Nat := 0
  unknown : Nat := 0

def StatusCounts.add (counts : StatusCounts) : Status → StatusCounts
  | .success => { counts with success := counts.success + 1 }
  | .warn => { counts with warn := counts.warn + 1 }
  | .error => { counts with error := counts.error + 1 }
  | .critical => { counts with critical := counts.critical + 1 }
  | .unknown => { counts with unknown := counts.unknown + 1 }

structure Aggregate where
  topK : Nat
  recentCapacity : Nat
  total : Nat := 0
  malformed : Nat := 0
  statuses : StatusCounts := {}
  primitives : FrequencyTable := {}
  contexts : FrequencyTable := {}
  durations : Sample := {}
  cpu : Sample := {}
  memory : Sample := {}
  totalErrors : Nat := 0
  errorTypes : FrequencyTable := {}
  errorPrimitives : FrequencyTable := {}
  recent : Window Record := {}

namespace Aggregate

/-- The empty aggregate of settings, where the place of its recent errors can be had. -/
def ofConfig (config : Config) : Aggregate :=
  { topK := config.topK, recentCapacity := config.recentErrors }

/-- Starts an aggregate on a machine. The place of all recent errors is taken at once. -/
def start (machine : Machine) (config : Config) : Except Crash Aggregate :=
  match machine.reserve config.recentErrors with
  | .error crash => .error crash
  | .ok () => .ok (ofConfig config)

def observeError (aggregate : Aggregate) (record : Record) : Aggregate :=
  { aggregate with
    totalErrors := aggregate.totalErrors + 1
    errorTypes := aggregate.errorTypes.add record.errorLabel
    errorPrimitives := aggregate.errorPrimitives.add record.primitiveLabel
    recent := aggregate.recent.push aggregate.recentCapacity record }

def observe (aggregate : Aggregate) (record : Record) : Aggregate :=
  let counted := { aggregate with
    total := aggregate.total + 1
    statuses := aggregate.statuses.add record.status
    primitives := aggregate.primitives.add record.primitiveLabel
    contexts := aggregate.contexts.add record.contextLabel
    durations := aggregate.durations.push? record.performance.durationMs
    cpu := aggregate.cpu.push? record.performance.cpuUsage
    memory := aggregate.memory.push? record.performance.memoryMb }
  if record.status.isError then counted.observeError record else counted

def observeMalformed (aggregate : Aggregate) : Aggregate := { aggregate with malformed := aggregate.malformed + 1 }

def summarize (aggregate : Aggregate) : Summary :=
  { total := aggregate.total
    successful := aggregate.statuses.success
    warnings := aggregate.statuses.warn
    errors := aggregate.statuses.error
    critical := aggregate.statuses.critical
    unknown := aggregate.statuses.unknown
    malformed := aggregate.malformed
    successRate := percentage aggregate.statuses.success aggregate.total
    topPrimitives := aggregate.primitives.mostCommon aggregate.topK
    topContexts := aggregate.contexts.mostCommon aggregate.topK
    performance :=
      { durationMs := aggregate.durations.latencySummary
        cpuPercent := aggregate.cpu.summary
        memoryMb := aggregate.memory.summary }
    errorAnalysis :=
      { total := aggregate.totalErrors
        types := aggregate.errorTypes.mostCommon aggregate.topK
        primitives := aggregate.errorPrimitives.mostCommon aggregate.topK
        recent := aggregate.recent.toList } }

end Aggregate

end StateAudit
