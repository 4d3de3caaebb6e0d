import StateAudit.Proofs.AggregateRun
import StateAudit.Proofs.ReportRun
import StateAudit.Stream.Analysis

/-! An analysis run as a run of observations, one for each reading of the stream. Which line a
reading stands at plays no part in it. -/

namespace StateAudit

def Observation.ofResult : Except RecordError Record → Observation
  | .ok found => .record found
  | .error _ => .malformed

namespace Stream

def Reading.observation (reading : Reading) : Observation := .ofResult reading.result

/-- What lines add to an aggregate. A blank one adds nothing. -/
def observations (lines : List Bytes) : List Observation :=
  lines.filterMap fun content => (readLine? content).map .ofResult

theorem observations_append (first second : List Bytes) :
    observations (first ++ second) = observations first ++ observations second := List.filterMap_append

theorem map_observation_numbered (number : Nat) (lines : List Bytes) :
    (numbered number lines).map Reading.observation = observations lines := by
  induction lines generalizing number with
  | nil => rfl
  | cons content rest ih =>
    have step : observations (content :: rest) =
        ((readLine? content).map Observation.ofResult).toList ++ observations rest := by
      rw [observations, List.filterMap_cons]
      cases readLine? content <;> rfl
    rw [numbered_cons, List.map_append, ih, step]
    cases readLine? content <;> rfl

theorem analyzeFrom_eq (source : String) (aggregate : Aggregate) (entries : List Entry) :
    analyzeFrom source aggregate entries =
      { value := aggregate.run ((readings entries).map Reading.observation)
        problems := interruption source entries } := by
  induction entries generalizing aggregate with
  | nil => rfl
  | cons entry rest ih =>
    cases entry with
    | failed line fault => rfl
    | record line record => exact ih (aggregate.observe record)
    | malformed line error => exact ih aggregate.observeMalformed

theorem analyze_eq (aggregate : Aggregate) (source : String) (chunks : List Chunk) :
    analyze aggregate source chunks =
      { value := aggregate.run (observations (untilFailure (lines chunks)))
        problems := interruption source (entries chunks) } := by
  rw [analyze, analyzeFrom_eq, entries, readings_entriesFrom, map_observation_numbered]

end Stream

end StateAudit
