import StateAudit.Aggregate
import StateAudit.Proofs.FrequencyTallies

/-! A run of observations through an aggregate. Each part of the aggregate is a fold over one
aspect of the records, or of those that report an error, and knows nothing of the other parts. -/

namespace StateAudit

/-- One step of an aggregate: a record, or a line that holds none. -/
inductive Observation where
  | record (record : Record)
  | malformed

namespace Observation

def record? : Observation → Option Record
  | .record found => some found
  | .malformed => none

def records (observations : List Observation) : List Record := observations.filterMap record?

/-- The records that report an error. -/
def failures (observations : List Observation) : List Record := (records observations).filter (·.status.isError)

def malformedCount (observations : List Observation) : Nat := observations.countP (·.record?.isNone)

@[simp] theorem records_record (found : Record) (rest : List Observation) :
    records (.record found :: rest) = found :: records rest := rfl

@[simp] theorem records_malformed (rest : List Observation) : records (.malformed :: rest) = records rest := rfl

@[simp] theorem failures_record (found : Record) (rest : List Observation) :
    failures (.record found :: rest) = if found.status.isError then found :: failures rest else failures rest :=
  List.filter_cons

@[simp] theorem failures_malformed (rest : List Observation) : failures (.malformed :: rest) = failures rest := rfl

@[simp] theorem malformedCount_record (found : Record) (rest : List Observation) :
    malformedCount (.record found :: rest) = malformedCount rest := List.countP_cons_of_neg nofun

@[simp] theorem malformedCount_malformed (rest : List Observation) :
    malformedCount (.malformed :: rest) = malformedCount rest + 1 := List.countP_cons_of_pos rfl

theorem length_records (observations : List Observation) :
    (records observations).length + malformedCount observations = observations.length := by
  induction observations with
  | nil => rfl
  | cons observation rest ih =>
    cases observation with
    | record found =>
      rw [records_record, malformedCount_record, List.length_cons, Nat.add_right_comm, ih, List.length_cons]
    | malformed => rw [records_malformed, malformedCount_malformed, ← Nat.add_assoc, ih, List.length_cons]

end Observation

open Observation (records failures malformedCount)

theorem StatusCounts.foldl_add (counts : StatusCounts) (statuses : List Status) :
    statuses.foldl StatusCounts.add counts =
      { success := counts.success + statuses.count .success
        warn := counts.warn + statuses.count .warn
        error := counts.error + statuses.count .error
        critical := counts.critical + statuses.count .critical
        unknown := counts.unknown + statuses.count .unknown } := by
  induction statuses generalizing counts with
  | nil => rfl
  | cons status rest ih =>
    rw [List.foldl_cons, ih]
    cases status <;> simp [StatusCounts.add, Nat.add_assoc, Nat.add_comm 1]

theorem Sample.values_foldl (sample : Sample) (values : List (Option Binary64)) :
    (values.foldl Sample.push? sample).values = sample.values ++ (values.filterMap id).toArray := by
  induction values generalizing sample with
  | nil => simp
  | cons value rest ih =>
    rw [List.foldl_cons, ih]
    cases value with
    | none => rfl
    | some value => simp [Sample.push?, Sample.push]

namespace Aggregate

def receive (aggregate : Aggregate) : Observation → Aggregate
  | .record record => aggregate.observe record
  | .malformed => aggregate.observeMalformed

def run (aggregate : Aggregate) (observations : List Observation) : Aggregate := observations.foldl receive aggregate

theorem run_append (aggregate : Aggregate) (first second : List Observation) :
    aggregate.run (first ++ second) = (aggregate.run first).run second := List.foldl_append

/-- What every part of an aggregate holds after a run. -/
theorem run_eq (aggregate : Aggregate) (observations : List Observation) : aggregate.run observations =
    let records := records observations
    let failures := failures observations
    { topK := aggregate.topK
      recentCapacity := aggregate.recentCapacity
      total := aggregate.total + records.length
      malformed := aggregate.malformed + malformedCount observations
      statuses := (records.map Record.status).foldl StatusCounts.add aggregate.statuses
      primitives := (records.map Record.primitiveLabel).foldl FrequencyTable.add aggregate.primitives
      contexts := (records.map Record.contextLabel).foldl FrequencyTable.add aggregate.contexts
      durations := (records.map (·.performance.durationMs)).foldl Sample.push? aggregate.durations
      cpu := (records.map (·.performance.cpuUsage)).foldl Sample.push? aggregate.cpu
      memory := (records.map (·.performance.memoryMb)).foldl Sample.push? aggregate.memory
      totalErrors := aggregate.totalErrors + failures.length
      errorTypes := (failures.map Record.errorLabel).foldl FrequencyTable.add aggregate.errorTypes
      errorPrimitives := (failures.map Record.primitiveLabel).foldl FrequencyTable.add aggregate.errorPrimitives
      recent := failures.foldl (Window.push aggregate.recentCapacity) aggregate.recent } := by
  induction observations generalizing aggregate with
  | nil => rfl
  | cons observation rest ih =>
    rw [run, List.foldl_cons, ← run, ih]
    cases observation with
    | malformed => simp [receive, observeMalformed, Nat.add_assoc, Nat.add_comm 1]
    | record found =>
      by_cases failed : found.status.isError = true
      · simp [receive, observe, observeError, failed, Nat.add_assoc, Nat.add_comm 1]
      · simp [receive, observe, failed, Nat.add_assoc, Nat.add_comm 1]

end Aggregate

end StateAudit
