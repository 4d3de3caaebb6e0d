import StateAudit.Proofs.AggregateConservation

/-! The same observations in another order give the same summary up to what tells of the order
itself: which of equally frequent labels comes first, which errors are the recent ones, how the
rounding of a mean goes, and the sign of a zero that is a minimum or a maximum. -/

namespace StateAudit

open Observation (records failures malformedCount)

namespace FrequencyTable

/-- Rankings of labels that came in different orders. The counts agree at every rank; the entries
do as well, up to the order of equal counts, where the limit leaves none out. -/
structure Reranked (labels : List String) (limit : Nat) (shown others : List (String × Nat)) : Prop where
  counts : shown.map Prod.snd = others.map Prod.snd
  entries : labels.eraseDups.length ≤ limit → shown.Perm others

theorem ranked_perm {labels others : List String} (same : labels.Perm others) :
    (ofLabels labels).ranked.Perm (ofLabels others).ranked := by
  have distinct : labels.eraseDups.Perm others.eraseDups := by
    rw [List.perm_ext_iff_of_nodup (nodup_eraseDups labels) (nodup_eraseDups others)]
    intro label
    rw [List.mem_eraseDups, List.mem_eraseDups, same.mem_iff]
  have entries : (ofLabels labels).entries.toList.Perm (ofLabels others).entries.toList := by
    simp only [entries_ofLabels, same.count_eq]
    exact distinct.map _
  exact (List.mergeSort_perm _ _).trans (entries.trans (List.mergeSort_perm _ _).symm)

theorem reranked_mostCommon {labels others : List String} (same : labels.Perm others) (limit : Nat) :
    Reranked labels limit ((ofLabels labels).mostCommon limit) ((ofLabels others).mostCommon limit) := by
  have moved := ranked_perm same
  have counts : (ofLabels labels).ranked.map Prod.snd = (ofLabels others).ranked.map Prod.snd :=
    (moved.map Prod.snd).eq_of_pairwise (fun _ _ _ _ above below => Nat.le_antisymm below above)
      (pairwise_ranked _) (pairwise_ranked _)
  constructor
  · rw [mostCommon, mostCommon, List.map_take, List.map_take, counts]
  · intro enough
    have length : (ofLabels labels).ranked.length = labels.eraseDups.length := by
      rw [ranked, List.length_mergeSort, entries_ofLabels, List.length_map]
    rw [mostCommon, mostCommon, List.take_of_length_le (length ▸ enough),
      List.take_of_length_le (moved.length_eq ▸ length ▸ enough)]
    exact moved

end FrequencyTable

open FrequencyTable (Reranked)

/-- All that summaries of the same observations in different orders have in common. -/
structure Summary.Reordered (limit : Nat) (observations : List Observation) (summary other : Summary) : Prop where
  total : summary.total = other.total
  outcomes : ∀ status, summary.outcome status = other.outcome status
  malformed : summary.malformed = other.malformed
  successRate : summary.successRate = other.successRate
  errors : summary.errorAnalysis.total = other.errorAnalysis.total
  durations : summary.performance.durationMs.Alike other.performance.durationMs.toSampleSummary
  p95 : summary.performance.durationMs.p95 = other.performance.durationMs.p95
  p99 : summary.performance.durationMs.p99 = other.performance.durationMs.p99
  cpu : summary.performance.cpuPercent.Alike other.performance.cpuPercent
  memory : summary.performance.memoryMb.Alike other.performance.memoryMb
  primitives : Reranked ((records observations).map Record.primitiveLabel) limit summary.topPrimitives other.topPrimitives
  contexts : Reranked ((records observations).map Record.contextLabel) limit summary.topContexts other.topContexts
  errorTypes : Reranked ((failures observations).map Record.errorLabel) limit
    summary.errorAnalysis.types other.errorAnalysis.types
  errorPrimitives : Reranked ((failures observations).map Record.primitiveLabel) limit
    summary.errorAnalysis.primitives other.errorAnalysis.primitives

theorem StatusCounts.foldl_perm {statuses others : List Status} (same : statuses.Perm others) :
    statuses.foldl add {} = others.foldl add {} := by
  simp only [foldl_add, same.count_eq]

theorem Sample.foldl_perm {values others : List (Option Binary64)} (same : values.Perm others) :
    (values.foldl push? {}).values.toList.Perm (others.foldl push? {}).values.toList := by
  simpa [values_foldl] using same.filterMap id

/-- The summary of a run depends on which observations it had, not on their order. -/
theorem summarize_perm (config : Config) {first second : List Observation} (same : first.Perm second) :
    ((Aggregate.ofConfig config).run first).summarize.Reordered config.topK first
      ((Aggregate.ofConfig config).run second).summarize := by
  have records : (records first).Perm (records second) := same.filterMap _
  have failures : (failures first).Perm (failures second) := records.filter _
  have statuses := StatusCounts.foldl_perm (records.map Record.status)
  have durations := Sample.latencySummary_perm (Sample.foldl_perm (records.map (·.performance.durationMs)))
  rw [Aggregate.run_eq, Aggregate.run_eq, Aggregate.summarize, Aggregate.summarize]
  simp only [Aggregate.ofConfig, Nat.zero_add, statuses, records.length_eq, failures.length_eq]
  exact {
    total := rfl
    outcomes := fun status => by cases status <;> rfl
    malformed := same.countP_eq _
    successRate := rfl
    errors := rfl
    durations := durations.1
    p95 := durations.2.1
    p99 := durations.2.2
    cpu := Sample.summary_perm (Sample.foldl_perm (records.map _))
    memory := Sample.summary_perm (Sample.foldl_perm (records.map _))
    primitives := FrequencyTable.reranked_mostCommon (records.map _) _
    contexts := FrequencyTable.reranked_mostCommon (records.map _) _
    errorTypes := FrequencyTable.reranked_mostCommon (failures.map _) _
    errorPrimitives := FrequencyTable.reranked_mostCommon (failures.map _) _ }

/-- A failed operation that took some time. -/
def timed (primitive : String) (duration : Binary64) : Observation :=
  .record { primitive := some primitive, context := none, stateId := none, status := .error, message := none
            performance := { durationMs := some duration }, members := [] }

/-- Two zero durations of either sign: the minimum is zero in both orders, and not the same zero. -/
theorem summarize_zeros :
    let below := timed "read" (.zero true)
    let above := timed "write" (.zero false)
    let first := ((Aggregate.ofConfig {}).run [below, .malformed, above]).summarize
    let second := ((Aggregate.ofConfig {}).run [.malformed, above, below]).summarize
    [below, .malformed, above].Perm [.malformed, above, below] ∧
      first.Reordered 10 [below, .malformed, above] second ∧
      first.performance.durationMs.min ≠ second.performance.durationMs.min := by
  intro below above first second
  have same : ([below] ++ [.malformed, above]).Perm ([.malformed, above] ++ [below]) := List.perm_append_comm
  exact ⟨same, summarize_perm {} same, by decide +kernel⟩

end StateAudit
