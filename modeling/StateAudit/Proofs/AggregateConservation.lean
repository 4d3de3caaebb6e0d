import StateAudit.Proofs.AggregateRun
import StateAudit.Proofs.SampleOrder

/-! Nothing is lost or counted twice between the observations of a run and its summary. The
counters, the four tables and the three samples agree with the records and with one another. -/

namespace StateAudit

open Observation (records failures malformedCount)
open FrequencyTable (Tally)

def Summary.outcome (summary : Summary) : Status → Nat
  | .success => summary.successful
  | .warn => summary.warnings
  | .error => summary.errors
  | .critical => summary.critical
  | .unknown => summary.unknown

/-- A summary with tables of at most `limit` entries that accounts for all observations of a run. -/
structure Summary.Conserves (limit : Nat) (observations : List Observation) (summary : Summary) : Prop where
  total : summary.total = (records observations).length
  malformed : summary.malformed = malformedCount observations
  outcomes : ∀ status, summary.outcome status = ((records observations).map Record.status).count status
  sum : summary.successful + summary.warnings + summary.errors + summary.critical + summary.unknown = summary.total
  errors : summary.errorAnalysis.total = (failures observations).length
  failed : summary.errorAnalysis.total = summary.errors + summary.critical
  primitives : Tally ((records observations).map Record.primitiveLabel) limit summary.topPrimitives
  contexts : Tally ((records observations).map Record.contextLabel) limit summary.topContexts
  errorTypes : Tally ((failures observations).map Record.errorLabel) limit summary.errorAnalysis.types
  errorPrimitives : Tally ((failures observations).map Record.primitiveLabel) limit summary.errorAnalysis.primitives
  bounded : ∀ label part, (label, part) ∈ summary.errorAnalysis.primitives →
    part ≤ ((records observations).map Record.primitiveLabel).count label ∧
      ∀ whole, (label, whole) ∈ summary.topPrimitives → part ≤ whole
  durations : summary.performance.durationMs.count = (records observations).countP (·.performance.durationMs.isSome)
  cpu : summary.performance.cpuPercent.count = (records observations).countP (·.performance.cpuUsage.isSome)
  memory : summary.performance.memoryMb.count = (records observations).countP (·.performance.memoryMb.isSome)

theorem Status.sum_count (statuses : List Status) :
    statuses.count .success + statuses.count .warn + statuses.count .error + statuses.count .critical +
      statuses.count .unknown = statuses.length := by
  induction statuses with
  | nil => rfl
  | cons status rest ih =>
    cases status <;> simp only [List.count_cons, List.length_cons, beq_iff_eq, reduceCtorEq, ↓reduceIte] <;> omega

theorem Status.countP_isError (statuses : List Status) :
    statuses.countP Status.isError = statuses.count .error + statuses.count .critical := by
  induction statuses with
  | nil => rfl
  | cons status rest ih =>
    cases status <;>
      simp only [List.countP_cons, List.count_cons, Status.isError, beq_iff_eq, reduceCtorEq, ↓reduceIte] <;> omega

theorem Sample.size_foldl (records : List Record) (measure : Record → Option Binary64) :
    ((records.map measure).foldl Sample.push? {}).size = records.countP fun record => (measure record).isSome := by
  rw [size, values_foldl]
  simp [List.length_filterMap_eq_countP]

theorem Observation.length_failures (observations : List Observation) :
    (failures observations).length =
      ((records observations).map Record.status).count .error +
        ((records observations).map Record.status).count .critical := by
  rw [failures, ← List.countP_eq_length_filter, ← Status.countP_isError, List.countP_map]
  rfl

/-- The summary of a run accounts for every observation, and for each of them once. -/
theorem conserves_summarize (config : Config) (observations : List Observation) :
    ((Aggregate.ofConfig config).run observations).summarize.Conserves config.topK observations := by
  have statuses := StatusCounts.foldl_add {} ((records observations).map Record.status)
  have primitives := FrequencyTable.tally_mostCommon ((records observations).map Record.primitiveLabel) config.topK
  have errorPrimitives := FrequencyTable.tally_mostCommon ((failures observations).map Record.primitiveLabel) config.topK
  have part : (failures observations).Sublist (records observations) := List.filter_sublist
  have length := Status.sum_count ((records observations).map Record.status)
  rw [List.length_map] at length
  simp only [Nat.zero_add] at statuses
  rw [Aggregate.run_eq, Aggregate.summarize]
  simp only [Aggregate.ofConfig, Nat.zero_add, statuses]
  exact {
    total := rfl
    malformed := rfl
    outcomes := by
      intro status
      cases status <;> rfl
    sum := length
    errors := rfl
    failed := Observation.length_failures observations
    primitives
    contexts := FrequencyTable.tally_mostCommon _ _
    errorTypes := FrequencyTable.tally_mostCommon _ _
    errorPrimitives
    bounded := fun _ _ member => errorPrimitives.le (part.map Record.primitiveLabel) primitives member
    durations := (Sample.count_latencySummary _).trans (Sample.size_foldl _ _)
    cpu := (Sample.count_summary _).trans (Sample.size_foldl _ _)
    memory := (Sample.count_summary _).trans (Sample.size_foldl _ _) }

end StateAudit
